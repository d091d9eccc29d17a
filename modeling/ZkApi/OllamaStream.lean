import Mathlib.Data.List.Basic
import ZkApi.JsonText

/-!
# Streams for Ollama clients

The daemon turns the event stream of a provider into a stream of records for an Ollama client.
The bytes of the provider come in chunks that are cut anywhere.  They are read line by line, and
what is left of the last line waits for the next chunk.
-/

namespace ZkApi.Clientd.Ollama

open JsonText

section Items

/-- What the daemon takes from its JSON library. -/
structure JsonLibrary where
  fromSlice : List UInt8 → Except String Json
  toVec : Json → List UInt8

/-- An item of the stream to the client: a record or a failure of the connection. -/
inductive Item where
  | record (value : Json)
  | failure (message : String)

/-- A record is a line of its JSON text. -/
def Item.bytes (library : JsonLibrary) : Item → Except String (List UInt8)
  | .record value => .ok (library.toVec value ++ [10])
  | .failure message => .error message

/-- `value.get(0)`. -/
def firstItem : Json → Option Json
  | .array (item :: _) => some item
  | _ => none

def isNull : Json → Bool
  | .null => true
  | _ => false

end Items

section State

/-- The state of a stream, without its upstream. -/
structure StreamState where
  model : String
  input : List UInt8
  output : List Item
  promptTokens : Nat
  completionTokens : Nat
  finishReason : String
  finished : Bool

def StreamState.enqueueJson (state : StreamState) (value : Json) : StreamState :=
  { state with output := state.output ++ [.record value] }

/-- The last record, with the tokens and the reason that were reported. -/
def doneRecord (state : StreamState) : Json :=
  .object [("model", .string state.model), ("created_at", .string "1970-01-01T00:00:00Z"),
    ("message", .object [("role", .string "assistant"), ("content", .string "")]),
    ("done", .bool true), ("done_reason", .string state.finishReason),
    ("total_duration", .integer 0), ("load_duration", .integer 0),
    ("prompt_eval_count", .integer state.promptTokens),
    ("eval_count", .integer state.completionTokens)]

def StreamState.enqueueDone (state : StreamState) : StreamState :=
  if state.finished then state
  else { state.enqueueJson (doneRecord state) with finished := true }

/-- Take over the tokens that an event reports. -/
def StreamState.applyUsage (state : StreamState) (chunk : Json) : StreamState :=
  match chunk.field? "usage" with
  | some usage =>
      { state with
        promptTokens := ((usage.field? "prompt_tokens").bind Json.asU64).getD state.promptTokens
        completionTokens :=
          ((usage.field? "completion_tokens").bind Json.asU64).getD state.completionTokens }
  | none => state

def choiceOf (chunk : Json) : Option Json :=
  (chunk.field? "choices").bind firstItem

def deltaOf (chunk : Json) : Option Json :=
  (choiceOf chunk).bind (·.field? "delta")

/-- `choices[0].delta.content`, if it is a text. -/
def deltaContent (chunk : Json) : Option String :=
  ((deltaOf chunk).bind (·.field? "content")).bind Json.asString

def contentOf (chunk : Json) : Option String :=
  (deltaContent chunk).filter (· ≠ "")

def thinkingOf (chunk : Json) : Option String :=
  (((deltaOf chunk).bind fun delta =>
    (delta.field? "reasoning_content").or (delta.field? "reasoning")).bind Json.asString).filter
      (· ≠ "")

def toolCallsOf (chunk : Json) : Option Json :=
  ((deltaOf chunk).bind (·.field? "tool_calls")).filter fun calls => !isNull calls

/-- The record of a message. -/
def messageRecord (model content : String) (thinking : Option String) (toolCalls : Option Json) :
    Json :=
  .object [("model", .string model), ("created_at", .string "1970-01-01T00:00:00Z"),
    ("message", .object ([("role", .string "assistant"), ("content", .string content)] ++
      (thinking.map fun text => ("thinking", Json.string text)).toList ++
      (toolCalls.map fun calls => ("tool_calls", calls)).toList)),
    ("done", .bool false)]

/-- The message that an event stands for, if it has any content. -/
def messageOf (model : String) (chunk : Json) : Option Json :=
  if (contentOf chunk).isNone ∧ (thinkingOf chunk).isNone ∧ (toolCallsOf chunk).isNone then none
  else some (messageRecord model ((contentOf chunk).getD "") (thinkingOf chunk) (toolCallsOf chunk))

def errorMessage (error : Json) : String :=
  ((error.field? "message").bind Json.asString).getD "OpenRouter streaming error"

def errorRecord (message : String) : Json :=
  .object [("error", .string message)]

def StreamState.applyReason (state : StreamState) (chunk : Json) : StreamState :=
  match ((choiceOf chunk).bind (·.field? "finish_reason")).bind Json.asString with
  | some reason => { state with finishReason := reason }
  | none => state

/-- `strip_prefix(b"data:")` and then one space. -/
def stripData : List UInt8 → Option (List UInt8)
  | 100 :: 97 :: 116 :: 97 :: 58 :: 32 :: payload => some payload
  | 100 :: 97 :: 116 :: 97 :: 58 :: payload => some payload
  | _ => none

/-- `[DONE]`. -/
def donePayload : List UInt8 :=
  [91, 68, 79, 78, 69, 93]

def consumeSseLine (library : JsonLibrary) (state : StreamState) (line : List UInt8) :
    StreamState :=
  match stripData line with
  | none => state
  | some payload =>
      if payload = [] then state
      else if payload = donePayload then state.enqueueDone
      else match library.fromSlice payload with
        | .error error =>
            { state with
              output := state.output ++ [.failure s!"invalid OpenRouter SSE event: {error}"]
              finished := true }
        | .ok chunk =>
            let state := state.applyUsage chunk
            match chunk.field? "error" with
            | some error =>
                { state.enqueueJson (errorRecord (errorMessage error)) with finished := true }
            | none =>
                let state := state.applyReason chunk
                match messageOf state.model chunk with
                | some message => state.enqueueJson message
                | none => state

/-- The line before the first newline, and the input after it. -/
def splitLine : List UInt8 → Option (List UInt8 × List UInt8)
  | [] => none
  | byte :: rest =>
      if byte = 10 then some ([], rest)
      else (splitLine rest).map fun found => (byte :: found.1, found.2)

/-- Remove one carriage return at the end. -/
def stripReturn (line : List UInt8) : List UInt8 :=
  if line.getLast? = some 13 then line.dropLast else line

theorem splitLine_length {input line rest : List UInt8} (found : splitLine input = some (line, rest)) :
    rest.length < input.length := by
  induction input generalizing line with
  | nil => cases found
  | cons byte input ih =>
      rw [splitLine] at found
      split at found
      · cases found
        exact Nat.lt_succ_self _
      · obtain ⟨⟨front, back⟩, inside, same⟩ := Option.map_eq_some_iff.mp found
        cases same
        exact Nat.lt_succ_of_lt (ih inside)

def consumeCompleteLines (library : JsonLibrary) (state : StreamState) : StreamState :=
  if state.finished then state
  else match _found : splitLine state.input with
    | none => state
    | some (line, rest) =>
        consumeCompleteLines library
          { consumeSseLine library state (stripReturn line) with input := rest }
termination_by state.input.length
decreasing_by exact splitLine_length _found

/-- The end of the upstream: what is left of the input is a line, and the stream is done. -/
def StreamState.flush (library : JsonLibrary) (state : StreamState) : StreamState :=
  (if state.input = [] then state
    else consumeSseLine library { state with input := [] } state.input).enqueueDone

/-- The upstream: chunks and failures in their order, and then nothing. -/
abbrev Upstream := List (Except String (List UInt8))

/-- One step of the stream to the client: the next item with the state and the upstream after it.
When the upstream has ended the flushed state is finished, so only its output is left. -/
def next (library : JsonLibrary) : StreamState → Upstream → Option (Item × StreamState × Upstream)
  | state, upstream =>
      match state.output with
      | item :: output => some (item, { state with output := output }, upstream)
      | [] =>
          if state.finished then none
          else match upstream with
            | .ok chunk :: rest =>
                next library
                  (consumeCompleteLines library { state with input := state.input ++ chunk }) rest
            | .error error :: rest =>
                some (.failure error, { state with finished := true }, rest)
            | [] =>
                match (state.flush library).output with
                | item :: output => some (item, { state.flush library with output := output }, [])
                | [] => none
termination_by _ upstream => upstream.length

/-- The items that the client receives until the stream ends. -/
inductive Emits (library : JsonLibrary) : StreamState → Upstream → List Item → Prop where
  | ends {state : StreamState} {upstream : Upstream} (last : next library state upstream = none) :
      Emits library state upstream []
  | item {state after : StreamState} {upstream rest : Upstream} {first : Item} {items : List Item}
      (step : next library state upstream = some (first, after, rest))
      (later : Emits library after rest items) : Emits library state upstream (first :: items)

/-- The state that `streaming_ollama_response` starts with. -/
def start (model : String) : StreamState where
  model := model
  input := []
  output := []
  promptTokens := 0
  completionTokens := 0
  finishReason := "stop"
  finished := false

end State

end ZkApi.Clientd.Ollama
