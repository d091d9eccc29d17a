import ZkApi.JsonText

/-!
# Chat requests on their way to the provider

A client that talks to the server and one that holds a key of its own send chat requests in three
dialects.  The server and the daemon each turn them into a chat completion, and each forwards
only some of the fields.
-/

namespace ZkApi.Chat

open JsonText

section Objects

/-- The fields of a JSON object.  Their order does not matter. -/
abbrev Fields := List (String × Json)

namespace Fields

def get (fields : Fields) (key : String) : Option Json :=
  fields.lookup key

def containsKey (fields : Fields) (key : String) : Bool :=
  (fields.get key).isSome

def insert (fields : Fields) (key : String) (value : Json) : Fields :=
  (key, value) :: fields.filter fun field => field.1 != key

def remove (fields : Fields) (key : String) : Fields :=
  fields.filter fun field => field.1 != key

/-- `entry(key).or_insert(value)`. -/
def orInsert (fields : Fields) (key : String) (value : Json) : Fields :=
  if fields.containsKey key then fields else fields.insert key value

/-- Insert the value of every listed key that the object has. -/
def select (object : Fields) (keys : List String) : Fields :=
  keys.foldl (fun chosen key =>
    match object.get key with
    | some value => chosen.insert key value
    | none => chosen) []

theorem lookup_filter_ne (fields : Fields) {key other : String} (different : other ≠ key) :
    (fields.filter fun field => field.1 != key).lookup other = fields.lookup other := by
  induction fields with
  | nil => rfl
  | cons field fields ih =>
      obtain ⟨name, value⟩ := field
      rw [List.filter_cons]
      by_cases dropped : name = key
      · have unlike : (other == name) = false := by
          rw [beq_eq_false_iff_ne, dropped]
          exact different
        simp [dropped, List.lookup_cons, ih, dropped ▸ unlike]
      · by_cases found : other = name
        · simp [dropped, found]
        · have unlike : (other == name) = false := beq_eq_false_iff_ne.mpr found
          simp [dropped, List.lookup_cons, unlike, ih]

@[simp]
theorem get_insert (fields : Fields) (key other : String) (value : Json) :
    (fields.insert key value).get other = if other = key then some value else fields.get other := by
  by_cases same : other = key
  · subst same
    simp [get, insert]
  · have unlike : (other == key) = false := beq_eq_false_iff_ne.mpr same
    rw [if_neg same, get, insert, List.lookup_cons, unlike]
    exact lookup_filter_ne fields same

theorem get_remove (fields : Fields) {key other : String} (different : other ≠ key) :
    (fields.remove key).get other = fields.get other :=
  lookup_filter_ne fields different

theorem get_orInsert (fields : Fields) (key other : String) (value : Json) :
    (fields.orInsert key value).get other =
      if other = key then some ((fields.get key).getD value) else fields.get other := by
  rw [orInsert, containsKey]
  cases found : fields.get key with
  | none => simp
  | some present =>
      by_cases same : other = key
      · simp [same, found]
      · simp [same]

theorem get_select (object : Fields) (keys : List String) (key : String) :
    (object.select keys).get key = if key ∈ keys then object.get key else none := by
  have general : ∀ (keys : List String) (chosen : Fields),
      (keys.foldl (fun chosen key =>
        match object.get key with
        | some value => chosen.insert key value
        | none => chosen) chosen).get key =
          if key ∈ keys then (object.get key).or (chosen.get key) else chosen.get key := by
    intro keys
    induction keys with
    | nil => intro chosen; simp
    | cons name keys ih =>
        intro chosen
        rw [List.foldl_cons, ih]
        by_cases same : key = name
        · subst same
          cases found : object.get key <;> simp
        · cases found : object.get name <;> simp [same]
  rw [select, general]
  simp [get]

end Fields

/-- `body.as_object().cloned().unwrap_or_default()`. -/
def objectOf : Json → Fields
  | .object fields => fields
  | _ => []

/-- The messages of a request, or its input as the message of the user. -/
def messagesOf (object : Fields) : Option Json :=
  (object.get "messages").or ((object.get "input").map fun input =>
    match input with
    | .string text => .array [.object [("role", .string "user"), ("content", .string text)]]
    | other => other)

/-- `map.insert("messages", messages)` if there are any. -/
def insertMessages (object normalized : Fields) : Fields :=
  match messagesOf object with
  | some messages => normalized.insert "messages" messages
  | none => normalized

/-- The options of a request to Ollama fill in what the request does not state. -/
def applyOptions (object normalized : Fields) : Fields :=
  match object.get "options" with
  | some (.object options) =>
      let normalized := match Fields.get options "temperature" with
        | some value => normalized.orInsert "temperature" value
        | none => normalized
      match Fields.get options "num_predict" with
      | some value => normalized.orInsert "max_tokens" value
      | none => normalized
  | _ => normalized

end Objects

section Server

/-- `normalize_chat_request` of the server. -/
def normalizeChatRequest (path : String) (body : Json) : String × Fields :=
  let object := objectOf body
  if path = "/v1/chat/completions" then
    ("/v1/chat/completions", object.insert "stream" (.bool false))
  else
    let clean := object.select ["model", "temperature", "max_tokens", "top_p", "stop", "tools",
      "tool_choice", "response_format", "usage"]
    let clean := applyOptions object (insertMessages object clean)
    ("/v1/chat/completions", clean.insert "stream" (.bool false))

end Server

section Daemon

def directOpenrouterDefaultMaxTokens : Nat := 256

def ensureDirectCompletionLimit (object : Fields) : Fields :=
  if object.containsKey "max_tokens" || object.containsKey "max_completion_tokens" then object
  else
    (object.remove "max_output_tokens").insert "max_tokens"
      ((object.get "max_output_tokens").getD (.integer directOpenrouterDefaultMaxTokens))

/-- `openrouter_request` of the daemon. -/
def openrouterRequest (path : String) (body : Json) : String × Fields :=
  let object := objectOf body
  if path = "/v1/chat/completions" ∨ path = "/chat/completions" then
    ("/chat/completions", (ensureDirectCompletionLimit object).orInsert "stream" (.bool false))
  else
    let normalized := object.select ["model", "temperature", "max_tokens", "max_completion_tokens",
      "top_p", "stop", "tools", "tool_choice", "response_format", "stream"]
    let normalized := applyOptions object (insertMessages object normalized)
    let normalized :=
      if !normalized.containsKey "max_tokens" && !normalized.containsKey "max_completion_tokens" then
        match object.get "max_output_tokens" with
        | some value => normalized.insert "max_tokens" value
        | none => normalized.insert "max_tokens" (.integer directOpenrouterDefaultMaxTokens)
      else normalized
    ("/chat/completions", normalized.orInsert "stream" (.bool false))

end Daemon

section Limits

/-- The path of a local chat endpoint. -/
def IsChatPath (path : String) : Prop :=
  path = "/v1/chat/completions" ∨ path = "/v1/responses" ∨ path = "/api/chat"

/-- `options.num_predict`. -/
def numPredict (object : Fields) : Option Json :=
  match object.get "options" with
  | some (.object options) => Fields.get options "num_predict"
  | _ => none

/-- The body states this completion limit. -/
def StatesLimit (body limit : Json) : Prop :=
  (objectOf body).get "max_tokens" = some limit ∨
    (objectOf body).get "max_completion_tokens" = some limit ∨
      (objectOf body).get "max_output_tokens" = some limit ∨ numPredict (objectOf body) = some limit

/-- A chat completion has this completion limit. -/
def ForwardsLimit (forwarded : Fields) (limit : Json) : Prop :=
  forwarded.get "max_tokens" = some limit ∨ forwarded.get "max_completion_tokens" = some limit

/-- Both programs forward the same messages, and every limit that the body states. -/
structure Agrees (path : String) (body : Json) : Prop where
  messages : (normalizeChatRequest path body).2.get "messages" =
    (openrouterRequest path body).2.get "messages"
  server : ∀ limit, StatesLimit body limit → ForwardsLimit (normalizeChatRequest path body).2 limit
  daemon : ∀ limit, StatesLimit body limit → ForwardsLimit (openrouterRequest path body).2 limit

/-- Every stated limit is one that both programs read in the dialect of the path: a chat
completion states it as its maximum of tokens or of completion tokens, and the other dialects as
their maximum of tokens or, without one, in the options. -/
def LimitsRead (path : String) (body : Json) : Prop :=
  ∀ limit, StatesLimit body limit →
    if path = "/v1/chat/completions" then
      (objectOf body).get "max_tokens" = some limit ∨
        (objectOf body).get "max_completion_tokens" = some limit
    else ((objectOf body).get "max_tokens").or (numPredict (objectOf body)) = some limit

end Limits

section Forwarding

theorem get_insertMessages (object normalized : Fields) {key : String} (other : key ≠ "messages") :
    (insertMessages object normalized).get key = normalized.get key := by
  rw [insertMessages]
  split <;> simp [other]

theorem get_insertMessages_messages (object : Fields) {normalized : Fields}
    (absent : normalized.get "messages" = none) :
    (insertMessages object normalized).get "messages" = messagesOf object := by
  rw [insertMessages]
  split
  · rename_i messages found
    simp [found]
  · rename_i found
    rw [absent, found]

theorem get_applyOptions (object normalized : Fields) {key : String} (one : key ≠ "temperature")
    (two : key ≠ "max_tokens") : (applyOptions object normalized).get key = normalized.get key := by
  rw [applyOptions]
  split
  · rename_i options found
    cases temperature : Fields.get options "temperature" <;>
      cases predict : Fields.get options "num_predict" <;> simp [Fields.get_orInsert, one, two]
  · rfl

/-- Without a limit of its own a request has the one of its options. -/
theorem get_applyOptions_maxTokens (object normalized : Fields) :
    (applyOptions object normalized).get "max_tokens" =
      (normalized.get "max_tokens").or (numPredict object) := by
  rw [applyOptions, numPredict]
  split
  · rename_i options found
    cases temperature : Fields.get options "temperature" <;>
      cases predict : Fields.get options "num_predict" <;>
        cases present : normalized.get "max_tokens" <;>
          simp [Fields.get_orInsert, present]
  · simp

/-- The fields that the server forwards of a request in another dialect. -/
theorem normalizeChatRequest_other {path : String} (other : path ≠ "/v1/chat/completions")
    (body : Json) :
    (normalizeChatRequest path body).2.get "messages" = messagesOf (objectOf body) ∧
      (normalizeChatRequest path body).2.get "max_tokens" =
        ((objectOf body).get "max_tokens").or (numPredict (objectOf body)) ∧
      (normalizeChatRequest path body).2.get "max_completion_tokens" = none := by
  simp only [normalizeChatRequest, if_neg other, Fields.get_insert]
  refine ⟨?_, ?_, ?_⟩
  · rw [if_neg (by decide), get_applyOptions _ _ (by decide) (by decide),
      get_insertMessages_messages]
    rw [Fields.get_select, if_neg (by decide)]
  · rw [if_neg (by decide), get_applyOptions_maxTokens, get_insertMessages _ _ (by decide),
      Fields.get_select, if_pos (by decide)]
  · rw [if_neg (by decide), get_applyOptions _ _ (by decide) (by decide),
      get_insertMessages _ _ (by decide), Fields.get_select, if_neg (by decide)]

/-- The request of the daemon before it fills in a limit. -/
def daemonNormalized (object : Fields) : Fields :=
  applyOptions object (insertMessages object (object.select ["model", "temperature", "max_tokens",
    "max_completion_tokens", "top_p", "stop", "tools", "tool_choice", "response_format", "stream"]))

theorem get_daemonNormalized (object : Fields) :
    (daemonNormalized object).get "messages" = messagesOf object ∧
      (daemonNormalized object).get "max_tokens" =
        (object.get "max_tokens").or (numPredict object) ∧
      (daemonNormalized object).get "max_completion_tokens" =
        object.get "max_completion_tokens" := by
  refine ⟨?_, ?_, ?_⟩
  · rw [daemonNormalized, get_applyOptions _ _ (by decide) (by decide),
      get_insertMessages_messages]
    rw [Fields.get_select, if_neg (by decide)]
  · rw [daemonNormalized, get_applyOptions_maxTokens, get_insertMessages _ _ (by decide),
      Fields.get_select, if_pos (by decide)]
  · rw [daemonNormalized, get_applyOptions _ _ (by decide) (by decide),
      get_insertMessages _ _ (by decide), Fields.get_select, if_pos (by decide)]

/-- The fields that the daemon forwards of a request in another dialect. -/
theorem openrouterRequest_other {path : String} (one : path ≠ "/v1/chat/completions")
    (two : path ≠ "/chat/completions") (body : Json) :
    (openrouterRequest path body).2.get "messages" = messagesOf (objectOf body) ∧
      (∀ limit, ((objectOf body).get "max_tokens").or (numPredict (objectOf body)) = some limit →
        (openrouterRequest path body).2.get "max_tokens" = some limit) := by
  obtain ⟨messages, maxTokens, completion⟩ := get_daemonNormalized (objectOf body)
  have shape : (openrouterRequest path body).2 =
      (if !(daemonNormalized (objectOf body)).containsKey "max_tokens" &&
          !(daemonNormalized (objectOf body)).containsKey "max_completion_tokens" then
        match (objectOf body).get "max_output_tokens" with
        | some value => (daemonNormalized (objectOf body)).insert "max_tokens" value
        | none => (daemonNormalized (objectOf body)).insert "max_tokens"
            (.integer directOpenrouterDefaultMaxTokens)
      else daemonNormalized (objectOf body)).orInsert "stream" (.bool false) := by
    simp only [openrouterRequest, one, two, or_self, if_false]
    rfl
  rw [shape]
  constructor
  · rw [Fields.get_orInsert, if_neg (by decide)]
    split
    · split <;> rw [Fields.get_insert, if_neg (by decide), messages]
    · exact messages
  · intro limit stated
    have present : (daemonNormalized (objectOf body)).containsKey "max_tokens" = true := by
      rw [Fields.containsKey, maxTokens, stated]
      rfl
    rw [present, Fields.get_orInsert, if_neg (by decide)]
    exact maxTokens.trans stated

/-- The daemon keeps the fields of a chat completion, and its limits if there are any. -/
theorem openrouterRequest_chat (body : Json) :
    (openrouterRequest "/v1/chat/completions" body).2.get "messages" =
        (objectOf body).get "messages" ∧
      ((∃ limit, (objectOf body).get "max_tokens" = some limit ∨
          (objectOf body).get "max_completion_tokens" = some limit) →
        (openrouterRequest "/v1/chat/completions" body).2.get "max_tokens" =
            (objectOf body).get "max_tokens" ∧
          (openrouterRequest "/v1/chat/completions" body).2.get "max_completion_tokens" =
            (objectOf body).get "max_completion_tokens") := by
  simp only [openrouterRequest, true_or, if_true]
  constructor
  · rw [Fields.get_orInsert, if_neg (by decide), ensureDirectCompletionLimit]
    split
    · rfl
    · rw [Fields.get_insert, if_neg (by decide), Fields.get_remove _ (by decide)]
  · rintro ⟨limit, stated⟩
    have kept : ensureDirectCompletionLimit (objectOf body) = objectOf body := by
      rw [ensureDirectCompletionLimit, if_pos]
      rcases stated with stated | stated <;> simp [Fields.containsKey, stated]
    rw [kept, Fields.get_orInsert, if_neg (by decide), Fields.get_orInsert, if_neg (by decide)]
    exact ⟨rfl, rfl⟩

theorem normalizeChatRequest_chat (body : Json) {key : String} (other : key ≠ "stream") :
    (normalizeChatRequest "/v1/chat/completions" body).2.get key = (objectOf body).get key := by
  simp only [normalizeChatRequest, if_true, Fields.get_insert, if_neg other]

end Forwarding

section Agreement

/-- The server and the daemon forward the same messages and every stated limit exactly if the
limits are stated where both programs read them in the dialect of the path. -/
theorem agrees_iff {path : String} (known : IsChatPath path) (body : Json) :
    Agrees path body ↔ LimitsRead path body := by
  by_cases chat : path = "/v1/chat/completions"
  · subst chat
    have server : ∀ limit, ForwardsLimit (normalizeChatRequest "/v1/chat/completions" body).2 limit ↔
        (objectOf body).get "max_tokens" = some limit ∨
          (objectOf body).get "max_completion_tokens" = some limit := by
      intro limit
      rw [ForwardsLimit, normalizeChatRequest_chat body (by decide),
        normalizeChatRequest_chat body (by decide)]
    obtain ⟨messages, limits⟩ := openrouterRequest_chat body
    constructor
    · intro agrees limit stated
      rw [if_pos rfl]
      exact (server limit).mp (agrees.server limit stated)
    · intro read
      refine ⟨?_, ?_, ?_⟩
      · rw [normalizeChatRequest_chat body (by decide), messages]
      · intro limit stated
        have own := read limit stated
        rw [if_pos rfl] at own
        exact (server limit).mpr own
      · intro limit stated
        have own := read limit stated
        rw [if_pos rfl] at own
        obtain ⟨maxTokens, completion⟩ := limits ⟨limit, own⟩
        rw [ForwardsLimit, maxTokens, completion]
        exact own
  · have direct : path ≠ "/chat/completions" := by
      rcases known with rfl | rfl | rfl <;> decide
    obtain ⟨messages, maxTokens, completion⟩ := normalizeChatRequest_other chat body
    obtain ⟨daemonMessages, daemonLimit⟩ := openrouterRequest_other chat direct body
    constructor
    · intro agrees limit stated
      rw [if_neg chat]
      rcases agrees.server limit stated with forwarded | forwarded
      · exact maxTokens.symm.trans forwarded
      · rw [completion] at forwarded
        cases forwarded
    · intro read
      refine ⟨messages.trans daemonMessages.symm, ?_, ?_⟩
      · intro limit stated
        have own := read limit stated
        rw [if_neg chat] at own
        exact Or.inl (maxTokens.trans own)
      · intro limit stated
        have own := read limit stated
        rw [if_neg chat] at own
        exact Or.inl (daemonLimit limit own)

/-- A request in the Responses dialect with a limit, as the daemon forwards it. -/
def responsesRequest : Json :=
  .object [("model", .string "openai/gpt-4o-mini"), ("input", .string "hello"),
    ("max_output_tokens", .integer 88)]

/-- A request of Ollama that states its limit in the options. -/
def ollamaRequest : Json :=
  .object [("model", .string "openai/gpt-4o-mini"),
    ("options", .object [("num_predict", .integer 64)])]

theorem agrees_iff_ollama : Agrees "/api/chat" ollamaRequest := by
  refine (agrees_iff (Or.inr (Or.inr rfl)) ollamaRequest).mpr ?_
  intro limit stated
  rw [if_neg (by decide)]
  rcases stated with stated | stated | stated | stated
  · cases stated
  · cases stated
  · cases stated
  · exact stated

/-- The server drops the limit of a request in the Responses dialect. -/
theorem responses_limit_dropped : ¬ Agrees "/v1/responses" responsesRequest := by
  intro agrees
  have stated : StatesLimit responsesRequest (.integer 88) := Or.inr (Or.inr (Or.inl rfl))
  obtain ⟨-, maxTokens, completion⟩ := @normalizeChatRequest_other "/v1/responses"
    (by decide) responsesRequest
  rcases agrees.server _ stated with forwarded | forwarded
  · rw [maxTokens] at forwarded
    cases forwarded
  · rw [completion] at forwarded
    cases forwarded

end Agreement

end ZkApi.Chat
