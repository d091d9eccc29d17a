import ZkApi.OllamaRecords

/-!
# The contents of a stream

What a client receives is stated from the lines of the upstream: a message for every event that
has something to say, until the first event that ends the stream, and then one last item.
-/

namespace ZkApi.Clientd.Ollama

open JsonText

section Lines

/-- The complete lines and what is left, after the bytes that are read already. -/
def cutLines (front : List UInt8) : List UInt8 → List (List UInt8) × List UInt8
  | [] => ([], front)
  | byte :: rest =>
      if byte = 10 then (front :: (cutLines [] rest).1, (cutLines [] rest).2)
      else cutLines (front ++ [byte]) rest

/-- The lines of a stream.  What is left at a clean end is a line, after a failure it is lost. -/
def linesOf (bytes : List UInt8) (ending : Option String) : List (List UInt8) :=
  (cutLines [] bytes).1.map stripReturn ++
    if ending = none ∧ (cutLines [] bytes).2 ≠ [] then [(cutLines [] bytes).2] else []

def eventsOf (library : JsonLibrary) (upstream : Upstream) : List Event :=
  (linesOf (readable upstream).1 (readable upstream).2).filterMap (eventOf library)

/-- The data before the event that ends the stream. -/
def chunksBefore : List Event → List Json
  | .chunk value :: events =>
      if (value.field? "error").isNone then value :: chunksBefore events else []
  | _ => []

/-- The event that ends the stream. -/
def stopOf : List Event → Option Event
  | [] => none
  | .chunk value :: events =>
      if (value.field? "error").isNone then stopOf events else some (.chunk value)
  | event :: _ => some event

def messagesOf (model : String) (chunks : List Json) : List Item :=
  (chunks.filterMap (messageOf model)).map .record

/-- The last number that was reported. -/
def lastReported (name : String) (chunks : List Json) : Option Nat :=
  (chunks.filterMap (reported name)).getLast?

/-- The state after all events that do not end the stream. -/
def StreamState.noteAll (state : StreamState) (chunks : List Json) : StreamState :=
  { state with
    output := state.output ++ messagesOf state.model chunks
    promptTokens := (lastReported "prompt_tokens" chunks).getD state.promptTokens
    completionTokens := (lastReported "completion_tokens" chunks).getD state.completionTokens
    finishReason := ((chunks.filterMap reasonOf).getLast?).getD state.finishReason }

/-- The item that ends the stream. -/
def lastItem (state : StreamState) : Option Event → Option String → Item
  | some (.invalid error), _ => .failure s!"invalid OpenRouter SSE event: {error}"
  | some (.chunk value), _ => .record (errorRecord (errorMessage (value.index "error")))
  | some .done, _ => .record (doneRecord state)
  | none, some error => .failure error
  | none, none => .record (doneRecord state)

def expectedItems (library : JsonLibrary) (model : String) (upstream : Upstream) : List Item :=
  let chunks := chunksBefore (eventsOf library upstream)
  messagesOf model chunks ++
    [lastItem ((start model).noteAll chunks) (stopOf (eventsOf library upstream))
      (readable upstream).2]

end Lines

section Run

/-- Events are taken over until the stream is finished. -/
def run (state : StreamState) (events : List Event) : StreamState :=
  events.foldl (fun state event => if state.finished then state else state.take event) state

theorem run_finished {state : StreamState} (finished : state.finished = true)
    (events : List Event) : run state events = state := by
  induction events with
  | nil => rfl
  | cons event events ih =>
      rw [run, List.foldl_cons, if_pos finished]
      exact ih

theorem run_running {state : StreamState} (running : state.finished = false) (event : Event)
    (events : List Event) : run state (event :: events) = run (state.take event) events := by
  rw [run, List.foldl_cons, if_neg (by simp [running])]
  rfl

theorem run_input (state : StreamState) (events : List Event) (input : List UInt8) :
    run { state with input := input } events = { run state events with input := input } := by
  induction events generalizing state with
  | nil => rfl
  | cons event events ih =>
      rcases Bool.eq_false_or_eq_true state.finished with finished | running
      · rw [run_finished finished]
        exact @run_finished { state with input := input } finished _
      · rw [run_running running, ← ih, ← take_input]
        exact @run_running { state with input := input } running event events

theorem consumeSseLine_run {library : JsonLibrary} {state : StreamState}
    (running : state.finished = false) (line : List UInt8) :
    consumeSseLine library state line = run state (eventOf library line).toList := by
  rw [consumeSseLine_eq]
  cases eventOf library line with
  | none => rfl
  | some event => exact (run_running running event []).symm

theorem run_append (state : StreamState) (front back : List Event) :
    run state (front ++ back) = run (run state front) back :=
  List.foldl_append

theorem filterMap_cons_toList {α β : Type} (f : α → Option β) (value : α) (items : List α) :
    (value :: items).filterMap f = (f value).toList ++ items.filterMap f := by
  cases found : f value <;> simp [found]

/-- Reading bytes takes over the events of their complete lines and keeps what is left. -/
theorem feed_run (library : JsonLibrary) (state : StreamState) (bytes : List UInt8) :
    feed library state bytes =
      { run state (((cutLines state.input bytes).1.map stripReturn).filterMap (eventOf library)) with
        input := (feed library state bytes).input } ∧
    ((feed library state bytes).finished = false →
      (feed library state bytes).input = (cutLines state.input bytes).2) := by
  induction bytes generalizing state with
  | nil => exact ⟨rfl, fun _ => rfl⟩
  | cons byte bytes ih =>
      rcases Bool.eq_false_or_eq_true state.finished with finished | running
      · rw [run_finished finished, feed_finished finished]
        refine ⟨rfl, fun running => ?_⟩
        rw [show ({ state with input := state.input ++ byte :: bytes } : StreamState).finished =
          state.finished from rfl, finished] at running
        cases running
      · by_cases newline : byte = 10
        · subst newline
          have step : feed library state (10 :: bytes) =
              feed library
                { consumeSseLine library state (stripReturn state.input) with input := [] }
                bytes := by
            rw [feed, List.foldl_cons, feedByte, if_neg (by simp [running]), if_pos rfl]
            rfl
          have cut : cutLines state.input (10 :: bytes) =
              (state.input :: (cutLines [] bytes).1, (cutLines [] bytes).2) := by
            rw [cutLines, if_pos rfl]
          obtain ⟨same, left⟩ := ih
            { consumeSseLine library state (stripReturn state.input) with input := [] }
          rw [step, cut]
          refine ⟨?_, left⟩
          rw [List.map_cons, filterMap_cons_toList, run_append, ← consumeSseLine_run running]
          refine same.trans ?_
          rw [run_input]
        · have step : feed library state (byte :: bytes) =
              feed library { state with input := state.input ++ [byte] } bytes := by
            rw [feed, List.foldl_cons, feedByte, if_neg (by simp [running]), if_neg newline]
            rfl
          have cut : cutLines state.input (byte :: bytes) =
              cutLines (state.input ++ [byte]) bytes := by
            rw [cutLines, if_neg newline]
          obtain ⟨same, left⟩ := ih { state with input := state.input ++ [byte] }
          rw [step, cut]
          refine ⟨?_, left⟩
          refine same.trans ?_
          rw [run_input]

/-- The item that a stream ends with when no event has ended it. -/
def closing (state : StreamState) (ending : Option String) : List Item :=
  if state.finished then [] else [lastItem state none ending]

theorem closing_finished {state : StreamState} (finished : state.finished = true)
    (ending : Option String) : closing state ending = [] :=
  if_pos finished

theorem closing_running {state : StreamState} (running : state.finished = false)
    (ending : Option String) : closing state ending = [lastItem state none ending] :=
  if_neg (by simp [running])

theorem output_enqueueDone (state : StreamState) :
    state.enqueueDone.output = state.output ++ closing state none := by
  rcases Bool.eq_false_or_eq_true state.finished with finished | running
  · rw [enqueueDone_finished finished, closing_finished finished, List.append_nil]
  · rw [enqueueDone_running running, closing_running running]
    rfl

/-- The items of a stream are those of its events, and then a last one if it is not finished. -/
theorem remaining_run (library : JsonLibrary) (model : String) (upstream : Upstream) :
    remaining library (start model) upstream =
      (run (start model) (eventsOf library upstream)).output ++
        closing (run (start model) (eventsOf library upstream)) (readable upstream).2 := by
  rw [remaining, eventsOf]
  obtain ⟨bytes, ending⟩ := readable upstream
  obtain ⟨same, left⟩ := feed_run library (start model) bytes
  simp only [linesOf, List.filterMap_append, run_append]
  rw [show (start model).input = [] from rfl] at same left
  generalize run (start model)
    (((cutLines [] bytes).1.map stripReturn).filterMap (eventOf library)) = reached at same ⊢
  generalize feed library (start model) bytes = state at same left ⊢
  have outputs : state.output = reached.output := by rw [same]
  have finishes : state.finished = reached.finished := by rw [same]
  rcases Bool.eq_false_or_eq_true reached.finished with finished | running
  · rw [run_finished finished, closing_finished finished, List.append_nil, ← outputs]
    exact if_pos (finishes.trans finished)
  · have open' : state.finished = false := finishes.trans running
    cases ending with
    | some error =>
        rw [if_neg (by simp), List.filterMap_nil, show run reached [] = reached from rfl,
          closing_running running, ← outputs]
        exact if_neg (by simp [open'])
    | none =>
        rw [show settled library state none = (state.flush library).output from
          if_neg (by simp [open']), StreamState.flush, ← left open']
        by_cases empty : state.input = []
        · rw [if_pos empty, if_neg (by simp [empty]), List.filterMap_nil,
            show run reached [] = reached from rfl, output_enqueueDone, outputs, same]
          rfl
        · have line : consumeSseLine library { state with input := [] } state.input =
              { run reached (eventOf library state.input).toList with input := [] } := by
            rw [@consumeSseLine_run library { state with input := [] } open', run_input]
            conv_lhs => rw [same]
            rw [run_input]
          rw [if_neg empty, if_pos ⟨rfl, empty⟩, line, filterMap_cons_toList, List.filterMap_nil,
            List.append_nil, output_enqueueDone]
          rfl

end Run

section Expected

theorem noteAll_nil (state : StreamState) : state.noteAll [] = state := by
  simp [StreamState.noteAll, messagesOf, lastReported]

theorem getD_getLast?_filterMap {α β : Type} (f : α → Option β) (first : α) (items : List α)
    (default : β) :
    (((first :: items).filterMap f).getLast?).getD default =
      ((items.filterMap f).getLast?).getD ((f first).getD default) := by
  rw [filterMap_cons_toList, List.getLast?_append]
  cases (items.filterMap f).getLast? with
  | none => cases f first <;> rfl
  | some last => rfl

theorem messagesOf_cons (model : String) (chunk : Json) (chunks : List Json) :
    messagesOf model (chunk :: chunks) =
      ((messageOf model chunk).map Item.record).toList ++ messagesOf model chunks := by
  rw [messagesOf, filterMap_cons_toList, List.map_append]
  cases messageOf model chunk <;> rfl

theorem noteAll_cons (state : StreamState) (first : Json) (chunks : List Json) :
    state.noteAll (first :: chunks) =
      ({ state.note first with
        output := state.output ++ ((messageOf state.model first).map Item.record).toList } :
          StreamState).noteAll chunks := by
  simp only [StreamState.noteAll, lastReported, getD_getLast?_filterMap, messagesOf_cons,
    StreamState.note, List.append_assoc]

/-- An event that ends the stream gives the last item. -/
theorem take_stop {state : StreamState} (running : state.finished = false) {events : List Event}
    {event : Event} (stops : stopOf events = some event) (ending : Option String) :
    (state.take event).finished = true ∧
      (state.take event).output = state.output ++ [lastItem state (some event) ending] := by
  induction events with
  | nil => cases stops
  | cons first events ih =>
      cases first with
      | done =>
          cases stops
          rw [StreamState.take, enqueueDone_running running]
          exact ⟨rfl, rfl⟩
      | invalid error =>
          cases stops
          exact ⟨rfl, rfl⟩
      | chunk value =>
          rw [stopOf] at stops
          split at stops
          · exact ih stops
          · next failed =>
              cases stops
              obtain ⟨error, found⟩ := Option.ne_none_iff_exists'.mp
                (fun none => failed (Option.isNone_iff_eq_none.mpr none))
              have index : value.index "error" = error := by
                cases value <;> simp_all [Json.field?, Json.index]
              simp only [StreamState.take, found, applyUsage_eq, lastItem, index]
              exact ⟨trivial, rfl⟩

/-- Events are messages and notes until one of them ends the stream. -/
theorem run_noteAll {state : StreamState} (running : state.finished = false)
    (events : List Event) :
    run state events =
      match stopOf events with
      | none => state.noteAll (chunksBefore events)
      | some event => (state.noteAll (chunksBefore events)).take event := by
  induction events generalizing state with
  | nil => exact (noteAll_nil state).symm
  | cons first events ih =>
      have ends (event : Event) (stops : stopOf (first :: events) = some event)
          (same : first = event) : run state (first :: events) = state.take event := by
        subst same
        rw [run_running running]
        exact run_finished (take_stop running stops none).1 events
      rcases stopped : stopOf (first :: events) with _ | event
      · cases first with
        | done => cases stopped
        | invalid error => cases stopped
        | chunk value =>
            rw [stopOf] at stopped
            split at stopped
            · next clean =>
                have plain := Option.isNone_iff_eq_none.mp clean
                rw [run_running running, StreamState.take, plain, chunksBefore, if_pos clean,
                  noteAll_cons, ih (by exact running), stopped]
            · cases stopped
      · cases first with
        | done =>
            rw [chunksBefore.eq_def, noteAll_nil]
            exact ends event stopped (Option.some.inj stopped)
        | invalid error =>
            rw [chunksBefore.eq_def, noteAll_nil]
            exact ends event stopped (Option.some.inj stopped)
        | chunk value =>
            have whole := stopped
            rw [stopOf] at stopped
            split at stopped
            · next clean =>
                have plain := Option.isNone_iff_eq_none.mp clean
                rw [run_running running, StreamState.take, plain, chunksBefore, if_pos clean,
                  noteAll_cons, ih (by exact running), stopped]
            · next failed =>
                rw [chunksBefore, if_neg failed, noteAll_nil]
                exact ends event whole (Option.some.inj stopped)

/-- The items of a stream are the messages of its events and one last item. -/
theorem remaining_eq_expected (library : JsonLibrary) (model : String) (upstream : Upstream) :
    remaining library (start model) upstream = expectedItems library model upstream := by
  rw [remaining_run, run_noteAll rfl, expectedItems]
  have running : ((start model).noteAll (chunksBefore (eventsOf library upstream))).finished =
    false := rfl
  cases stopped : stopOf (eventsOf library upstream) with
  | none => exact congrArg _ (closing_running running _)
  | some event =>
      obtain ⟨finished, output⟩ := take_stop running stopped (readable upstream).2
      simp only [closing_finished finished, List.append_nil]
      exact output

/-- The text of the message of a record. -/
def Item.content : Item → String
  | .record value =>
      (((value.field? "message").bind (·.field? "content")).bind Json.asString).getD ""
  | .failure _ => ""

def Item.isMessage : Item → Prop
  | .record value => value.field? "done" = some (.bool false)
  | .failure _ => False

/-- The three items that end a stream. -/
def Item.isTerminal : Item → Prop
  | .record value =>
      value.field? "done" = some (.bool true) ∨
        ∃ message, value = errorRecord message
  | .failure _ => True

def contentsOf (items : List Item) : String :=
  String.join (items.map Item.content)

theorem isMessage_of_mem {model : String} {chunks : List Json} {item : Item}
    (mem : item ∈ messagesOf model chunks) : item.isMessage := by
  obtain ⟨message, found, rfl⟩ := List.mem_map.mp mem
  obtain ⟨chunk, _, made⟩ := List.mem_filterMap.mp found
  rw [messageOf] at made
  split at made
  · cases made
  · cases made
    rfl

theorem isTerminal_lastItem (state : StreamState) (event : Option Event)
    (ending : Option String) : (lastItem state event ending).isTerminal := by
  unfold lastItem
  split
  · trivial
  · exact .inr ⟨_, rfl⟩
  · exact .inl rfl
  · trivial
  · exact .inl rfl

theorem content_lastItem (state : StreamState) (event : Option Event) (ending : Option String) :
    (lastItem state event ending).content = "" := by
  unfold lastItem
  split <;> rfl

theorem content_messageRecord (model content : String) (thinking : Option String)
    (toolCalls : Option Json) :
    (Item.record (messageRecord model content thinking toolCalls)).content = content :=
  rfl

/-- The text of an event is in its message, and an event without a message has no text. -/
theorem content_messageOf (model : String) (chunk : Json) :
    contentsOf ((messageOf model chunk).map Item.record).toList = (deltaContent chunk).getD "" := by
  have content : (contentOf chunk).getD "" = (deltaContent chunk).getD "" := by
    rw [contentOf]
    cases deltaContent chunk with
    | none => rfl
    | some text =>
        by_cases empty : text = "" <;> simp [Option.filter, empty]
  rw [messageOf, ← content]
  split
  · next silent =>
      rw [Option.isNone_iff_eq_none.mp silent.1]
      rfl
  · simp [contentsOf, String.join, content_messageRecord]

theorem contentsOf_append (front back : List Item) :
    contentsOf (front ++ back) = contentsOf front ++ contentsOf back := by
  rw [contentsOf, List.map_append, String.join_append]
  rfl

theorem contentsOf_messagesOf (model : String) (chunks : List Json) :
    contentsOf (messagesOf model chunks) =
      String.join (chunks.map fun chunk => (deltaContent chunk).getD "") := by
  induction chunks with
  | nil => rfl
  | cons chunk chunks ih =>
      rw [messagesOf_cons, contentsOf_append, content_messageOf, ih, List.map_cons,
        String.join_cons]

/-- Only the record of a done stream is marked as done, and it has the counts of the state. -/
theorem counts_lastItem {state : StreamState} {event : Option Event} {ending : Option String}
    {record : Json} (last : lastItem state event ending = .record record)
    (done : record.field? "done" = some (.bool true)) : record = doneRecord state := by
  unfold lastItem at last
  split at last
  · cases last
  · cases last
    cases done
  · cases last
    rfl
  · cases last
  · cases last
    rfl

/-- A client receives the same items for every way of cutting the upstream into chunks: messages
and then one last item.  Their contents are those of the events, and the counts of the last record
are those that were reported last. -/
theorem stream_exact (library : JsonLibrary) (model : String) (upstream : Upstream) :
    ∃ items,
      (∀ other, readable other = readable upstream →
        ∀ received, Emits library (start model) other received ↔ received = items) ∧
      (∃ messages last, items = messages ++ [last] ∧ (∀ message ∈ messages, message.isMessage) ∧
        last.isTerminal) ∧
      contentsOf items =
        String.join ((chunksBefore (eventsOf library upstream)).map
          fun chunk => (deltaContent chunk).getD "") ∧
      ∀ record, .record record ∈ items → record.field? "done" = some (.bool true) →
        record.field? "prompt_eval_count" = some (.integer
          ((lastReported "prompt_tokens" (chunksBefore (eventsOf library upstream))).getD 0)) ∧
        record.field? "eval_count" = some (.integer
          ((lastReported "completion_tokens" (chunksBefore (eventsOf library upstream))).getD 0)) := by
  refine ⟨expectedItems library model upstream, ?_, ?_, ?_, ?_⟩
  · intro other same received
    have items : expectedItems library model other = expectedItems library model upstream := by
      rw [expectedItems, expectedItems, eventsOf, eventsOf, same]
    rw [← items, ← remaining_eq_expected]
    exact emits_iff (.inr (by simp [start])) other received
  · exact ⟨_, _, rfl, fun _ mem => isMessage_of_mem mem, isTerminal_lastItem _ _ _⟩
  · rw [expectedItems, contentsOf_append, contentsOf_messagesOf, contentsOf, List.map_singleton,
      content_lastItem]
    exact String.append_empty
  · intro record mem done
    rcases List.mem_append.mp mem with message | last
    · have marked : Item.isMessage (.record record) := isMessage_of_mem message
      rw [Item.isMessage, done] at marked
      cases marked
    · have record_eq := counts_lastItem (List.mem_singleton.mp last).symm done
      rw [record_eq]
      exact ⟨rfl, rfl⟩

end Expected

end ZkApi.Clientd.Ollama
