import Mathlib.Tactic.Common
import ZkApi.OllamaStream

/-!
# The records of a stream

The bytes of a provider can be read one at a time.  This gives the same state as reading them in
chunks, so the items of a stream depend on its bytes and on the way it ends only.
-/

namespace ZkApi.Clientd.Ollama

open JsonText

section Events

/-- What a line stands for, if it is a line of data. -/
inductive Event where
  | done
  | invalid (error : String)
  | chunk (value : Json)

def eventOf (library : JsonLibrary) (line : List UInt8) : Option Event :=
  (stripData line).bind fun payload =>
    if payload = [] then none
    else if payload = donePayload then some .done
    else match library.fromSlice payload with
      | .error error => some (.invalid error)
      | .ok value => some (.chunk value)

/-- A number of tokens that an event reports. -/
def reported (name : String) (chunk : Json) : Option Nat :=
  ((chunk.field? "usage").bind (·.field? name)).bind Json.asU64

def reasonOf (chunk : Json) : Option String :=
  ((choiceOf chunk).bind (·.field? "finish_reason")).bind Json.asString

/-- The state after the tokens and the reason of an event. -/
def StreamState.note (state : StreamState) (chunk : Json) : StreamState :=
  { state with
    promptTokens := (reported "prompt_tokens" chunk).getD state.promptTokens
    completionTokens := (reported "completion_tokens" chunk).getD state.completionTokens
    finishReason := (reasonOf chunk).getD state.finishReason }

def StreamState.take (state : StreamState) : Event → StreamState
  | .done => state.enqueueDone
  | .invalid error =>
      { state with
        output := state.output ++ [.failure s!"invalid OpenRouter SSE event: {error}"]
        finished := true }
  | .chunk value =>
      match value.field? "error" with
      | some error =>
          { (state.applyUsage value).enqueueJson (errorRecord (errorMessage error)) with
            finished := true }
      | none =>
          { state.note value with
            output := state.output ++ ((messageOf state.model value).map Item.record).toList }

theorem applyUsage_eq (state : StreamState) (chunk : Json) :
    state.applyUsage chunk =
      { state with
        promptTokens := (reported "prompt_tokens" chunk).getD state.promptTokens
        completionTokens := (reported "completion_tokens" chunk).getD state.completionTokens } := by
  unfold StreamState.applyUsage reported
  cases chunk.field? "usage" <;> rfl

theorem applyReason_eq (state : StreamState) (chunk : Json) :
    state.applyReason chunk =
      { state with finishReason := (reasonOf chunk).getD state.finishReason } := by
  unfold StreamState.applyReason
  rw [← reasonOf]
  cases reasonOf chunk <;> rfl

theorem consumeSseLine_eq (library : JsonLibrary) (state : StreamState) (line : List UInt8) :
    consumeSseLine library state line =
      match eventOf library line with
      | none => state
      | some event => state.take event := by
  rw [consumeSseLine, eventOf]
  cases stripData line with
  | none => rfl
  | some payload =>
      simp only [Option.bind_some]
      by_cases empty : payload = []
      · rw [if_pos empty, if_pos empty]
      · rw [if_neg empty, if_neg empty]
        by_cases done : payload = donePayload
        · rw [if_pos done, if_pos done]
          rfl
        · rw [if_neg done, if_neg done]
          cases library.fromSlice payload with
          | error error => rfl
          | ok value =>
              simp only [StreamState.take]
              cases value.field? "error" with
              | some error => rfl
              | none =>
                  simp only [applyUsage_eq, applyReason_eq]
                  cases messageOf state.model value with
                  | none => simp [StreamState.note]
                  | some message => rfl

theorem enqueueDone_finished {state : StreamState} (finished : state.finished = true) :
    state.enqueueDone = state := by
  rw [StreamState.enqueueDone, if_pos finished]

theorem enqueueDone_running {state : StreamState} (running : state.finished = false) :
    state.enqueueDone =
      { state with output := state.output ++ [.record (doneRecord state)], finished := true } := by
  rw [StreamState.enqueueDone, if_neg (by simp [running])]
  rfl

theorem take_input (state : StreamState) (event : Event) (input : List UInt8) :
    ({ state with input := input } : StreamState).take event =
      { state.take event with input := input } := by
  cases event with
  | done =>
      simp only [StreamState.take]
      rcases Bool.eq_false_or_eq_true state.finished with finished | running
      · rw [enqueueDone_finished finished]
        exact enqueueDone_finished finished
      · rw [enqueueDone_running running]
        exact enqueueDone_running running
  | invalid error => rfl
  | chunk value =>
      simp only [StreamState.take, applyUsage_eq]
      cases value.field? "error" <;> rfl

theorem take_output (before : List Item) (state : StreamState) (event : Event) :
    ({ state with output := before ++ state.output } : StreamState).take event =
      { state.take event with output := before ++ (state.take event).output } := by
  cases event with
  | done =>
      simp only [StreamState.take]
      rcases Bool.eq_false_or_eq_true state.finished with finished | running
      · rw [enqueueDone_finished finished]
        exact enqueueDone_finished finished
      · rw [enqueueDone_running running]
        refine (@enqueueDone_running { state with output := before ++ state.output }
          running).trans ?_
        simp [doneRecord]
  | invalid error => simp [StreamState.take]
  | chunk value =>
      simp only [StreamState.take, applyUsage_eq]
      cases value.field? "error" <;> simp [StreamState.enqueueJson, StreamState.note]

end Events

section Bytes

variable (library : JsonLibrary)

/-- Read one more byte.  A line is consumed with its newline. -/
def feedByte (state : StreamState) (byte : UInt8) : StreamState :=
  if state.finished then { state with input := state.input ++ [byte] }
  else if byte = 10 then
    { consumeSseLine library state (stripReturn state.input) with input := [] }
  else { state with input := state.input ++ [byte] }

def feed (state : StreamState) (bytes : List UInt8) : StreamState :=
  bytes.foldl (feedByte library) state

/-- No complete line waits in the input. -/
def Waiting (state : StreamState) : Prop :=
  state.finished = true ∨ 10 ∉ state.input

variable {library}

theorem consumeSseLine_input (state : StreamState) (line input : List UInt8) :
    consumeSseLine library { state with input := input } line =
      { consumeSseLine library state line with input := input } := by
  rw [consumeSseLine_eq, consumeSseLine_eq]
  cases eventOf library line with
  | none => rfl
  | some event => exact take_input state event input

theorem consumeSseLine_output (before : List Item) (state : StreamState) (line : List UInt8) :
    consumeSseLine library { state with output := before ++ state.output } line =
      { consumeSseLine library state line with
        output := before ++ (consumeSseLine library state line).output } := by
  rw [consumeSseLine_eq, consumeSseLine_eq]
  cases eventOf library line with
  | none => rfl
  | some event => exact take_output before state event

theorem splitLine_append {front : List UInt8} (clean : 10 ∉ front) (rest : List UInt8) :
    splitLine (front ++ 10 :: rest) = some (front, rest) := by
  induction front with
  | nil => rfl
  | cons byte front ih =>
      rw [List.mem_cons, not_or] at clean
      rw [List.cons_append, splitLine, if_neg (fun same => clean.1 same.symm), ih clean.2]
      rfl

theorem splitLine_of_clean {input : List UInt8} (clean : 10 ∉ input) : splitLine input = none := by
  induction input with
  | nil => rfl
  | cons byte input ih =>
      rw [List.mem_cons, not_or] at clean
      rw [splitLine, if_neg (fun same => clean.1 same.symm), ih clean.2]
      rfl

theorem consumeCompleteLines_finished {state : StreamState} (finished : state.finished = true) :
    consumeCompleteLines library state = state := by
  rw [consumeCompleteLines, if_pos finished]

theorem consumeCompleteLines_none {state : StreamState} (none : splitLine state.input = none) :
    consumeCompleteLines library state = state := by
  rw [consumeCompleteLines]
  split <;> grind

theorem consumeCompleteLines_some {state : StreamState} {line rest : List UInt8}
    (open' : state.finished = false) (found : splitLine state.input = some (line, rest)) :
    consumeCompleteLines library state =
      consumeCompleteLines library
        { consumeSseLine library state (stripReturn line) with input := rest } := by
  rw [consumeCompleteLines, open']
  split <;> grind

theorem feed_finished {state : StreamState} (finished : state.finished = true)
    (bytes : List UInt8) :
    feed library state bytes = { state with input := state.input ++ bytes } := by
  induction bytes generalizing state with
  | nil => simp [feed]
  | cons byte bytes ih =>
      rw [feed, List.foldl_cons, feedByte, if_pos finished]
      refine (@ih { state with input := state.input ++ [byte] } finished).trans ?_
      simp

/-- A chunk is read as its bytes are, one after the other. -/
theorem consumeCompleteLines_eq_feed {state : StreamState} (waiting : Waiting state)
    (chunk : List UInt8) :
    consumeCompleteLines library { state with input := state.input ++ chunk } =
      feed library state chunk := by
  induction chunk generalizing state with
  | nil =>
      rw [List.append_nil]
      rcases waiting with finished | clean
      · exact consumeCompleteLines_finished finished
      · exact consumeCompleteLines_none (splitLine_of_clean clean)
  | cons byte chunk ih =>
      rcases Bool.eq_false_or_eq_true state.finished with finished | running
      · rw [feed_finished finished]
        exact consumeCompleteLines_finished finished
      · have clean : 10 ∉ state.input := by
          rcases waiting with finished | clean
          · rw [running] at finished
            cases finished
          · exact clean
        rw [feed, List.foldl_cons, feedByte, if_neg (by simp [running])]
        by_cases newline : byte = 10
        · subst newline
          rw [if_pos rfl]
          have step := @consumeCompleteLines_some library
            { state with input := state.input ++ 10 :: chunk } _ _ running
            (splitLine_append clean chunk)
          rw [step, consumeSseLine_input]
          exact @ih { consumeSseLine library state (stripReturn state.input) with
            input := [] } (.inr (by simp))
        · rw [if_neg newline]
          have longer : Waiting { state with input := state.input ++ [byte] } :=
            .inr (by simpa [clean] using fun same => newline same.symm)
          have rest := ih longer
          rw [show ({ state with input := state.input ++ [byte] } : StreamState).input ++ chunk =
            state.input ++ byte :: chunk by simp] at rest
          exact rest

theorem waiting_feed {state : StreamState} (waiting : Waiting state) (bytes : List UInt8) :
    Waiting (feed library state bytes) := by
  induction bytes generalizing state with
  | nil => exact waiting
  | cons byte bytes ih =>
      refine ih ?_
      unfold feedByte
      split
      · next finished => exact .inl finished
      · next running =>
          split
          · exact .inr (by simp)
          · next other =>
              refine .inr ?_
              rcases waiting with finished | clean
              · exact absurd finished running
              · simpa [clean] using fun same => other same.symm

theorem feedByte_output (before : List Item) (state : StreamState) (byte : UInt8) :
    feedByte library { state with output := before ++ state.output } byte =
      { feedByte library state byte with
        output := before ++ (feedByte library state byte).output } := by
  unfold feedByte
  simp only [consumeSseLine_output]
  split
  · rfl
  · split <;> rfl

theorem feed_output (before : List Item) (state : StreamState) (bytes : List UInt8) :
    feed library { state with output := before ++ state.output } bytes =
      { feed library state bytes with
        output := before ++ (feed library state bytes).output } := by
  induction bytes generalizing state with
  | nil => rfl
  | cons byte bytes ih =>
      rw [feed, List.foldl_cons, feedByte_output]
      exact ih (feedByte library state byte)

end Bytes

section Whole

variable (library : JsonLibrary)

/-- The bytes before the first failure of the upstream, and that failure. -/
def readable : Upstream → List UInt8 × Option String
  | [] => ([], none)
  | .error error :: _ => ([], some error)
  | .ok chunk :: rest => (chunk ++ (readable rest).1, (readable rest).2)

/-- All items that are still to come when the rest of the upstream is known. -/
def settled (state : StreamState) (ending : Option String) : List Item :=
  if state.finished then state.output
  else match ending with
    | some error => state.output ++ [.failure error]
    | none => (state.flush library).output

def remaining (state : StreamState) (upstream : Upstream) : List Item :=
  settled library (feed library state (readable upstream).1) (readable upstream).2

variable {library}

theorem flush_finished (state : StreamState) : (state.flush library).finished = true := by
  unfold StreamState.flush
  generalize (if state.input = [] then state
    else consumeSseLine library { state with input := [] } state.input) = last
  rcases Bool.eq_false_or_eq_true last.finished with finished | running
  · rw [enqueueDone_finished finished, finished]
  · rw [enqueueDone_running running]

theorem enqueueDone_output (before : List Item) (state : StreamState) :
    ({ state with output := before ++ state.output } : StreamState).enqueueDone =
      { state.enqueueDone with output := before ++ state.enqueueDone.output } :=
  take_output before state .done

theorem flush_output (before : List Item) (state : StreamState) :
    ({ state with output := before ++ state.output } : StreamState).flush library =
      { state.flush library with output := before ++ (state.flush library).output } := by
  unfold StreamState.flush
  by_cases empty : state.input = []
  · rw [if_pos empty, if_pos empty]
    exact enqueueDone_output before state
  · rw [if_neg empty, if_neg empty]
    have line := @consumeSseLine_output library before
      { state with input := [] } state.input
    rw [show consumeSseLine library
      { ({ state with output := before ++ state.output } : StreamState) with input := [] }
      ({ state with output := before ++ state.output } : StreamState).input = _ from line]
    exact enqueueDone_output before _

theorem settled_output (before : List Item) (state : StreamState) (ending : Option String) :
    settled library { state with output := before ++ state.output } ending =
      before ++ settled library state ending := by
  simp only [settled, flush_output]
  split
  · rfl
  · cases ending with
    | some error => exact List.append_assoc _ _ _
    | none => rfl

theorem remaining_output (before : List Item) (state : StreamState) (upstream : Upstream) :
    remaining library { state with output := before ++ state.output } upstream =
      before ++ remaining library state upstream := by
  rw [remaining, feed_output]
  exact settled_output before _ _

theorem remaining_finished {state : StreamState} (finished : state.finished = true)
    (upstream : Upstream) : remaining library state upstream = state.output := by
  rw [remaining, feed_finished finished]
  exact if_pos finished

theorem next_ok {state : StreamState} (queue : state.output = [])
    (running : state.finished = false) (chunk : List UInt8) (rest : Upstream) :
    next library state (.ok chunk :: rest) =
      next library
        (consumeCompleteLines library { state with input := state.input ++ chunk }) rest := by
  rw [next.eq_def]
  simp [queue, running]

theorem next_error {state : StreamState} (queue : state.output = [])
    (running : state.finished = false) (error : String) (rest : Upstream) :
    next library state (.error error :: rest) =
      some (.failure error, { state with finished := true }, rest) := by
  rw [next.eq_def]
  simp [queue, running]

/-- One step of the stream gives the first of the items that are to come. -/
theorem next_remaining {state : StreamState} (waiting : Waiting state) (upstream : Upstream) :
    match next library state upstream with
    | none => remaining library state upstream = []
    | some (item, after, rest) =>
        remaining library state upstream = item :: remaining library after rest ∧
          Waiting after := by
  induction upstream generalizing state with
  | nil =>
      rw [next]
      rcases queue : state.output with _ | ⟨item, output⟩
      · rcases Bool.eq_false_or_eq_true state.finished with finished | running
        · simp [finished, remaining_finished finished, queue]
        · have all : remaining library state [] = (state.flush library).output := by
            simp [remaining, readable, feed, settled, running]
          rcases flushed : (state.flush library).output with _ | ⟨item, output⟩
          · simp [running, flushed, all]
          · simp only [running, Bool.false_eq_true, if_false]
            refine ⟨?_, .inl (flush_finished state)⟩
            rw [all, flushed, remaining_finished]
            exact flush_finished state
      · refine ⟨?_, waiting⟩
        have split := @remaining_output library [item]
          { state with output := output } []
        rw [List.singleton_append, List.singleton_append] at split
        rw [← split, ← queue]
  | cons part upstream ih =>
      rcases queue : state.output with _ | ⟨item, output⟩
      · rcases Bool.eq_false_or_eq_true state.finished with finished | running
        · rw [next.eq_def]
          simp [finished, remaining_finished finished, queue]
        · cases part with
          | error error =>
              rw [next_error queue running]
              refine ⟨?_, .inl rfl⟩
              rw [@remaining_finished library { state with finished := true } rfl]
              simp [remaining, readable, feed, settled, running, queue]
          | ok chunk =>
              rw [next_ok queue running, consumeCompleteLines_eq_feed waiting]
              have later := ih (@waiting_feed library state waiting chunk)
              have same : remaining library state (.ok chunk :: upstream) =
                  remaining library (feed library state chunk) upstream := by
                simp [remaining, readable, feed]
              rw [same]
              exact later
      · rw [next.eq_def]
        simp only [queue]
        refine ⟨?_, waiting⟩
        have split := @remaining_output library [item]
          { state with output := output } (part :: upstream)
        rw [List.singleton_append, List.singleton_append] at split
        rw [← split, ← queue]

/-- The stream emits the items that are to come, and it ends after them. -/
theorem emits_iff {state : StreamState} (waiting : Waiting state) (upstream : Upstream)
    (items : List Item) :
    Emits library state upstream items ↔ items = remaining library state upstream := by
  constructor
  · intro emits
    induction emits with
    | @ends state upstream last =>
        have step := @next_remaining library _ waiting upstream
        rw [last] at step
        exact step.symm
    | @item state after upstream rest first items step later ih =>
        have here := @next_remaining library _ waiting upstream
        rw [step] at here
        rw [here.1, ih here.2]
  · intro same
    induction items generalizing state upstream with
    | nil =>
        have step := @next_remaining library _ waiting upstream
        cases taken : next library state upstream with
        | none => exact .ends taken
        | some found =>
            rw [taken] at step
            rw [step.1] at same
            cases same
    | cons first items ih =>
        have step := @next_remaining library _ waiting upstream
        cases taken : next library state upstream with
        | none =>
            rw [taken] at step
            rw [step] at same
            cases same
        | some found =>
            obtain ⟨item, after, rest⟩ := found
            rw [taken] at step
            rw [step.1] at same
            injection same with head tail
            subst head
            exact .item taken (ih step.2 rest tail)

end Whole

end ZkApi.Clientd.Ollama
