import ZkApi.DaemonPrograms
import ZkApi.FinalityFacts
import ZkApi.VaultReceipts

/-!
# How the daemon reads the vault

The daemon asks a node for the record of a note and, if a withdrawal is pending, for the record of
that.  It takes numbers of 64 bits out of the words of the answers.  The vault may change between
the two calls.
-/

namespace ZkApi.Clientd

open Interleaving Program Indexer
open Browser.Calldata (abiWord callData mapM_padStart mapM_toDigits number_zeros padStart strip0x)
open Browser.WalletRpc (JsValue NoteRecord PendingWithdrawal Word answerWords decodePending
  length_padStart length_toDigits_word notesSelector pendingWithdrawalsSelector statusWord
  wordNumber wordTexts wordTexts_flatten)
open Browser.Receipts (hexDigit_small)

section Decoding

/-- The words of an answer.  A text that is not ASCII is refused, so its letters are its bytes. -/
def abiWords (value : String) : Except AuthError (List (List Char)) :=
  let encoded := strip0x value.toList
  if encoded.isEmpty || encoded.length % 64 != 0 || !encoded.all (·.toNat < 128) then
    .error (.wallet "RPC returned malformed ABI data")
  else .ok (wordTexts encoded.length encoded)

/-- A word as a number of 64 bits: the first 48 of its digits have to be zero. -/
def abiWordU64 (word : List Char) : Except AuthError UInt64 :=
  if word.length != 64 || !word.all (fun letter => (hexDigit letter).isSome) ||
      (word.take 48).any (· != '0') then
    .error (.wallet "RPC ABI integer does not fit in u64")
  else
    match (word.drop 48).mapM hexDigit with
    | some digits => .ok (UInt64.ofNat (Abi.number digits))
    | none => .error (.wallet "RPC returned malformed ABI integer")

def notesData (noteId : UInt32) : String :=
  "0x9f18e4ed" ++ String.ofList (padStart 64 (Nat.toDigits 16 noteId.toNat))

def pendingData (noteId : UInt32) : String :=
  "0xa2f9f1ce" ++ String.ofList (padStart 64 (Nat.toDigits 16 noteId.toNat))

/-- The status in the record of a note. -/
def noteStatusOf (encodedNote : String) : Except AuthError UInt64 := do
  let noteWords ← abiWords encodedNote
  match noteWords with
  | _ :: _ :: _ :: status :: _ => abiWordU64 status
  | _ => .error (.wallet "vault notes() returned a truncated response")

/-- The deadline in the record of a pending withdrawal. -/
def pendingDeadlineOf (encodedPending : String) : Except AuthError UInt64 := do
  let pendingWords ← abiWords encodedPending
  match pendingWords with
  | pending :: _ :: _ :: _ :: _ :: challengeDeadline :: _ =>
      if (← abiWordU64 pending) ≠ 1 then
        .error (.wallet "vault pending-withdrawal record is missing")
      else abiWordU64 challengeDeadline
  | _ => .error (.wallet "vault pending-withdrawal record is missing")

end Decoding

section Numbers

theorem hexDigit_eq_zero {letter : Char} : hexDigit letter = some 0 ↔ letter = '0' := by
  constructor
  · intro zero
    have below := hexDigit_lt (by rw [zero]; rfl : (hexDigit letter).isSome = true)
    have all : ∀ code : Fin 103, hexDigit (Char.ofNat code) = some 0 →
        Char.ofNat code = '0' := by decide
    have own := all ⟨letter.toNat, below⟩
    rw [Char.ofNat_toNat] at own
    exact own zero
  · rintro rfl
    decide

variable {word : List Char} {digits : List Nat}

theorem digits_small (read : word.mapM hexDigit = some digits) : ∀ digit ∈ digits, digit < 16 := by
  intro digit member
  obtain ⟨index, bound, rfl⟩ := List.getElem_of_mem member
  have within : index < word.length := by rwa [← Traversal.length_of_mapM read]
  have found := Traversal.getElem?_of_mapM read (List.getElem?_eq_getElem within)
  rw [List.getElem?_eq_getElem bound] at found
  exact hexDigit_small found.symm

/-- The number of a text is zero only if the text has no other letter than zeros. -/
theorem number_eq_zero_iff (read : word.mapM hexDigit = some digits) :
    Abi.number digits = 0 ↔ ∀ letter ∈ word, letter = '0' := by
  rw [Abi.number_eq_zero]
  have all := Traversal.mapM_eq_some_iff.mp read
  clear read
  induction all with
  | nil => simp
  | cons first _ ih =>
      rw [List.forall_mem_cons, List.forall_mem_cons]
      refine and_congr ?_ ih
      rw [← hexDigit_eq_zero, first, Option.some_inj]

/-- A word is read as its number if that has 64 bits, and refused otherwise. -/
theorem abiWordU64_eq (whole : word.length = 64) (read : word.mapM hexDigit = some digits) :
    abiWordU64 word =
      if Abi.number digits < 2 ^ 64 then .ok (UInt64.ofNat (Abi.number digits))
      else .error (.wallet "RPC ABI integer does not fit in u64") := by
  have all := Traversal.mapM_eq_some_iff.mp read
  have length : digits.length = 64 := (Traversal.length_of_mapM read).trans whole
  have front : (word.take 48).mapM hexDigit = some (digits.take 48) :=
    Traversal.mapM_eq_some_iff.mpr (List.forall₂_take 48 all)
  have back : (word.drop 48).mapM hexDigit = some (digits.drop 48) :=
    Traversal.mapM_eq_some_iff.mpr (List.forall₂_drop 48 all)
  have small := Abi.number_lt (digits_small back)
  have split := Abi.number_split (digits.take 48) (digits.drop 48)
  have last : (digits.drop 48).length = 16 := by
    rw [List.length_drop, length]
  rw [List.take_append_drop, last] at split
  rw [last] at small
  have hex : word.all (fun letter => (hexDigit letter).isSome) = true :=
    List.all_eq_true.mpr fun letter member => Traversal.isSome_of_mapM read member
  have zeros := number_eq_zero_iff front
  unfold abiWordU64
  rw [hex, whole]
  by_cases high : Abi.number (digits.take 48) = 0
  · have none : (word.take 48).any (· != '0') = false := by
      rw [List.any_eq_false]
      intro letter member
      simp [zeros.mp high letter member]
    rw [none, back, if_neg (by decide)]
    dsimp only
    rw [high] at split
    rw [if_pos (by omega), show Abi.number digits = Abi.number (digits.drop 48) by omega]
  · have some : (word.take 48).any (· != '0') = true := by
      by_contra clean
      refine high (zeros.mpr fun letter member => ?_)
      rw [Bool.not_eq_true, List.any_eq_false] at clean
      simpa using clean letter member
    rw [some, if_pos (by decide), if_neg (by omega)]

end Numbers

section Agreement

theorem bind_eq_ok {Err α β : Type} {first : Except Err α} {next : α → Except Err β} {value : β} (done : (first >>= next) = .ok value) :
    ∃ middle, first = .ok middle ∧ next middle = .ok value := by
  cases first with
  | error cause => cases done
  | ok middle => exact ⟨middle, rfl, done⟩

variable {word : List Char} {value : UInt64}

/-- What the daemon reads as a number, the page reads as the same one. -/
theorem abiWordU64_page (read : abiWordU64 word = .ok value) :
    wordNumber word = .ok value.toNat := by
  have kept := read
  unfold abiWordU64 at read
  split at read
  · cases read
  · rename_i form
    simp only [Bool.or_eq_true, not_or, bne_iff_ne, ne_eq, not_not, Bool.not_eq_true',
      Bool.not_eq_true, Bool.not_eq_false] at form
    obtain ⟨⟨whole, hex⟩, _⟩ := form
    obtain ⟨digits, found⟩ := Traversal.mapM_of_all (List.all_eq_true.mp hex)
    rw [abiWordU64_eq whole found] at kept
    split at kept
    · rename_i small
      cases kept
      rw [wordNumber, found, UInt64.toNat_ofNat_of_lt' small]
    · cases kept

theorem abiWords_page {encoded : String} {words : List (List Char)}
    (read : abiWords encoded = .ok words) : answerWords (.text encoded) = words := by
  unfold abiWords at read
  dsimp only at read
  split at read
  · cases read
  · rename_i form
    cases read
    simp only [Bool.or_eq_true, not_or, Bool.not_eq_true] at form
    have some : (JsValue.text encoded).truthy = true := by
      by_contra empty
      have none : encoded = "" := by simpa [JsValue.truthy] using empty
      subst none
      exact absurd form.1.1 (by decide)
    rw [answerWords, if_pos some]
    rfl

/-- A status that the daemon takes from an answer is the one that the page takes from it. -/
theorem noteStatusOf_page {encoded : String} (read : noteStatusOf encoded = .ok value) :
    statusWord (answerWords (.text encoded)) = .ok value.toNat := by
  obtain ⟨words, cut, rest⟩ := bind_eq_ok read
  rw [abiWords_page cut]
  split at rest
  · exact abiWordU64_page rest
  · cases rest

/-- A deadline that both take from an answer is the same. -/
theorem pendingDeadlineOf_page {encoded : String} {pending : PendingWithdrawal}
    (read : pendingDeadlineOf encoded = .ok value)
    (decoded : decodePending (answerWords (.text encoded)) = .ok pending) :
    pending.challengeDeadline = value.toNat := by
  obtain ⟨words, cut, rest⟩ := bind_eq_ok read
  rw [abiWords_page cut] at decoded
  split at rest
  · obtain ⟨flag, first, rest⟩ := bind_eq_ok rest
    split at rest
    · cases rest
    · have limit := abiWordU64_page rest
      obtain ⟨_, _, decoded⟩ := bind_eq_ok decoded
      split at decoded
      · cases decoded
      · obtain ⟨_, _, decoded⟩ := bind_eq_ok decoded
        obtain ⟨found, same, decoded⟩ := bind_eq_ok decoded
        cases decoded
        rw [limit] at same
        exact (Except.ok.inj same).symm
  · cases rest

end Agreement

section Vault

/-- A pending withdrawal in the state of the vault. -/
structure PendingRecord where
  pending : Word
  activeRoot : Word
  withdrawalNullifier : Word
  finalBalance : Word
  destination : Word
  challengeDeadline : Word

def PendingRecord.words (record : PendingRecord) : List (List Char) :=
  [record.pending, record.activeRoot, record.withdrawalNullifier, record.finalBalance,
    record.destination, record.challengeDeadline].map fun word =>
    padStart 64 (Nat.toDigits 16 word.val)

/-- The answer to a call that returns words. -/
def encodeWords (words : List (List Char)) : String :=
  String.ofList ('0' :: 'x' :: words.flatten)

/-- The records of the vault and the note of the wallet at each moment. -/
structure VaultView where
  note : Nat → Nat → NoteRecord
  pendingWithdrawal : Nat → Nat → PendingRecord
  held : Nat → Option UInt32

/-- What a call of the vault returns at a moment. -/
def VaultView.Returns (vault : VaultView) (time : Nat) (data encoded : String) : Prop :=
  ∀ noteId word, abiWord (.integer noteId) = .ok word →
    (data = callData notesSelector [word] → encoded = encodeWords (vault.note time noteId).words) ∧
      (data = callData pendingWithdrawalsSelector [word] →
        encoded = encodeWords (vault.pendingWithdrawal time noteId).words)

/-- What the daemon gets of the wallet and the vault at a moment.  Any call may fail. -/
def VaultView.Answers (vault : VaultView) (time : Nat) : (op : Op) → Resp op → Prop
  | .vaultNotes noteId, reply => (∃ cause, reply = .error cause) ∨
      ∃ encodedNote, vault.Returns time (notesData noteId) encodedNote ∧
        reply = noteStatusOf encodedNote
  | .vaultPending noteId, reply => (∃ cause, reply = .error cause) ∨
      ∃ encodedPending, vault.Returns time (pendingData noteId) encodedPending ∧
        reply = pendingDeadlineOf encodedPending
  | .status, reply => ∀ walletStatus, reply = .ok walletStatus →
      walletStatus.note.map NoteState.noteId = vault.held time
  | _, _ => True

theorem length_wordText (word : Word) :
    (padStart 64 (Nat.toDigits 16 word.val)).length = 64 :=
  length_padStart (length_toDigits_word word)

theorem wordText_hex (word : Word) :
    ∀ letter ∈ padStart 64 (Nat.toDigits 16 word.val), (hexDigit letter).isSome = true := by
  obtain ⟨digits, read, _⟩ := mapM_toDigits word.val
  exact fun letter member => Traversal.isSome_of_mapM (mapM_padStart read) member

theorem abiWord_noteId (noteId : UInt32) :
    abiWord (.integer noteId.toNat) = .ok (padStart 64 (Nat.toDigits 16 noteId.toNat)) := by
  obtain ⟨digits, read, _⟩ := mapM_toDigits noteId.toNat
  have small : noteId.toNat < 2 ^ 256 := noteId.toNat_lt.trans (by decide)
  have short := length_toDigits_word ⟨noteId.toNat, small⟩
  have hex : Browser.Calldata.isHex (Nat.toDigits 16 noteId.toNat) = true := by
    rw [Browser.Calldata.isHex, Bool.and_eq_true, List.all_eq_true]
    refine ⟨?_, fun letter member => Traversal.isSome_of_mapM read member⟩
    simp
  rw [abiWord, Browser.Calldata.Quantity.digits, hex, if_neg (by simpa using short)]

theorem notesData_eq (noteId : UInt32) :
    notesData noteId =
      callData notesSelector [padStart 64 (Nat.toDigits 16 noteId.toNat)] := by
  rw [← String.toList_inj]
  simp [notesData, callData, notesSelector]

theorem pendingData_eq (noteId : UInt32) :
    pendingData noteId =
      callData pendingWithdrawalsSelector [padStart 64 (Nat.toDigits 16 noteId.toNat)] := by
  rw [← String.toList_inj]
  simp [pendingData, callData, pendingWithdrawalsSelector]

theorem abiWords_encode {words : List Word} (some : words ≠ []) :
    abiWords (encodeWords (words.map fun word => padStart 64 (Nat.toDigits 16 word.val))) =
      .ok (words.map fun word => padStart 64 (Nat.toDigits 16 word.val)) := by
  generalize texts : (words.map fun word : Word => padStart 64 (Nat.toDigits 16 word.val)) = parts
  have whole : ∀ part ∈ parts, part.length = 64 := by
    rw [← texts]
    intro part member
    obtain ⟨word, _, rfl⟩ := List.mem_map.mp member
    exact length_wordText word
  have ascii : ∀ letter ∈ parts.flatten, letter.toNat < 128 := by
    rw [← texts]
    intro letter member
    obtain ⟨part, within, inside⟩ := List.mem_flatten.mp member
    obtain ⟨word, _, rfl⟩ := List.mem_map.mp within
    have below := hexDigit_lt (wordText_hex word letter inside)
    omega
  have long : parts.flatten.length = parts.length * 64 := by
    rw [List.length_flatten, List.map_congr_left whole, List.map_const',
      List.sum_replicate_nat]
  have positive : 0 < parts.length := by
    rw [← texts, List.length_map]
    exact List.length_pos_iff.mpr some
  have stripped : strip0x (encodeWords parts).toList = parts.flatten := by
    rw [encodeWords, String.toList_ofList, strip0x]
  unfold abiWords
  dsimp only
  rw [stripped, if_neg, wordTexts_flatten parts whole _ (by omega)]
  simp only [Bool.or_eq_true, not_or, Bool.not_eq_true, List.isEmpty_eq_false_iff,
    bne_eq_false_iff_eq, Bool.not_eq_false', List.all_eq_true, decide_eq_true_eq]
  refine ⟨⟨?_, by omega⟩, ascii⟩
  exact List.length_pos_iff.mp (by omega)

theorem abiWordU64_word (word : Word) :
    abiWordU64 (padStart 64 (Nat.toDigits 16 word.val)) =
      if word.val < 2 ^ 64 then .ok (UInt64.ofNat word.val)
      else .error (.wallet "RPC ABI integer does not fit in u64") := by
  obtain ⟨digits, read, same⟩ := mapM_toDigits word.val
  rw [abiWordU64_eq (length_wordText word) (mapM_padStart read), number_zeros, same]

theorem toNat_of_word {word : Word} {value : UInt64}
    (read : abiWordU64 (padStart 64 (Nat.toDigits 16 word.val)) = .ok value) :
    value.toNat = word.val := by
  rw [abiWordU64_word] at read
  split at read
  · rename_i small
    cases read
    exact UInt64.toNat_ofNat_of_lt' small
  · cases read

variable {vault : VaultView} {noteId : UInt32} {time : Nat} {value : UInt64}

/-- A status that the daemon reads is that of the note in the vault. -/
theorem vaultNotes_reads (answered : vault.Answers time (.vaultNotes noteId) (.ok value)) :
    value.toNat = (vault.note time noteId.toNat).status.val := by
  rcases answered with ⟨_, impossible⟩ | ⟨encodedNote, returns, read⟩
  · cases impossible
  · have shown := (returns _ _ (abiWord_noteId noteId)).1 (notesData_eq noteId)
    rw [shown, noteStatusOf, NoteRecord.words, abiWords_encode (by simp)] at read
    exact toNat_of_word read.symm

/-- A deadline that the daemon reads is that of a pending withdrawal in the vault. -/
theorem vaultPending_reads (answered : vault.Answers time (.vaultPending noteId) (.ok value)) :
    (vault.pendingWithdrawal time noteId.toNat).pending.val = 1 ∧
      value.toNat = (vault.pendingWithdrawal time noteId.toNat).challengeDeadline.val := by
  rcases answered with ⟨_, impossible⟩ | ⟨encodedPending, returns, read⟩
  · cases impossible
  · have shown := (returns _ _ (abiWord_noteId noteId)).2 (pendingData_eq noteId)
    rw [shown, pendingDeadlineOf, PendingRecord.words, abiWords_encode (by simp)] at read
    obtain ⟨words, cut, rest⟩ := bind_eq_ok read.symm
    cases cut
    obtain ⟨flag, first, rest⟩ := bind_eq_ok rest
    split at rest
    · cases rest
    · rename_i one
      rw [not_not.mp one] at first
      exact ⟨(toNat_of_word first).symm, toNat_of_word rest⟩

end Vault

section Status

/-- What the daemon may report of a note: how it was in the vault at some moment of the call, and
the deadline of the withdrawal that was pending then or later in the call. -/
def ReadsVault (vault : VaultView) (noteId : UInt32) (start finish : Nat) :
    Except AuthError (String × Option UInt64) → Prop
  | .ok (status, deadline) => ∃ seen, start ≤ seen ∧ seen ≤ finish ∧
      ((vault.note seen noteId.toNat).status.val = 1 ∧ status = "active" ∧ deadline = none ∨
        (vault.note seen noteId.toNat).status.val = 3 ∧ status = "closed" ∧ deadline = none ∨
        (vault.note seen noteId.toNat).status.val = 2 ∧ status = "pending_withdrawal" ∧
          ∃ asked limit, seen ≤ asked ∧ asked ≤ finish ∧ deadline = some limit ∧
            (vault.pendingWithdrawal asked noteId.toNat).pending.val = 1 ∧
            limit.toNat = (vault.pendingWithdrawal asked noteId.toNat).challengeDeadline.val)
  | .error _ => True

theorem onchainWithdrawalStatus_reads {vault : VaultView} {allowed : Nat → Op → Prop}
    (notes : ∀ time noteId, allowed time (.vaultNotes noteId))
    (pending : ∀ time noteId, allowed time (.vaultPending noteId)) (noteId : UInt32) (now : Nat) :
    Safely vault.Answers allowed (ReadsVault vault noteId now) now
      (onchainWithdrawalStatus noteId) := by
  unfold onchainWithdrawalStatus
  rw [safely_bind]
  refine safely_call.mpr fun seen waits => ⟨notes _ _, fun reply answered => ?_⟩
  cases reply with
  | error cause => trivial
  | ok rawStatus =>
      have status := vaultNotes_reads answered
      change Safely _ _ _ _ (if rawStatus = 1 then _ else _)
      split
      · rename_i active
        subst active
        exact ⟨seen, waits, le_rfl, .inl ⟨status.symm, rfl, rfl⟩⟩
      split
      · rename_i waiting
        subst waiting
        rw [safely_bind]
        refine safely_call.mpr fun asked after => ⟨pending _ _, fun reply answered => ?_⟩
        cases reply with
        | error cause => trivial
        | ok limit =>
            obtain ⟨recorded, same⟩ := vaultPending_reads answered
            refine ⟨seen, waits, after, .inr (.inr ⟨status.symm, rfl, ?_⟩)⟩
            exact ⟨asked, limit, after, le_rfl, rfl, recorded, same⟩
      split
      · rename_i closed
        subst closed
        exact ⟨seen, waits, le_rfl, .inr (.inl ⟨status.symm, rfl, rfl⟩)⟩
      split <;> trivial

/-- The note of the wallet had a status in the vault since the start. -/
def VaultView.Had (vault : VaultView) (status start moment : Nat) : Prop :=
  ∃ noteId read seen, start ≤ read ∧ read ≤ seen ∧ seen ≤ moment ∧
    vault.held read = some noteId ∧ (vault.note seen noteId.toNat).status.val = status

theorem VaultView.Had.mono {vault : VaultView} {status start moment later : Nat}
    (had : vault.Had status start moment) (le : moment ≤ later) :
    vault.Had status start later := by
  obtain ⟨noteId, read, seen, after, order, before, rest⟩ := had
  exact ⟨noteId, read, seen, after, order, before.trans le, rest⟩

/-- The files of the wallet are reset, and its plan and its lease are forgotten, only when its note
is closed in the vault.  An escape plan is dropped only when the note is active there. -/
def Confirms (vault : VaultView) (start moment : Nat) : Op → Prop
  | .resetFiles | .clearPrepared | .clearSlot => vault.Had 3 start moment
  | .setPrepared _ | .removePrepared => vault.Had 1 start moment
  | _ => True

/-- An operation that drops an escape plan. -/
def Op.isDropping : Op → Bool
  | .lockPrepared | .unlockPrepared | .setPrepared _ | .removePrepared => true
  | _ => false

theorem only_dropping : dropEscapePlan.Only Op.isDropping := by
  refine (only_call rfl).bind fun prepared => ?_
  split
  · exact (only_call rfl).bind fun _ => (only_lift_call rfl).bind fun _ => only_call rfl
  · exact only_call rfl

theorem ReadsVault.closed {vault : VaultView} {noteId : UInt32} {start finish : Nat}
    {deadline : Option UInt64}
    (reads : ReadsVault vault noteId start finish (.ok ("closed", deadline))) :
    ∃ seen, start ≤ seen ∧ seen ≤ finish ∧ (vault.note seen noteId.toNat).status.val = 3 := by
  obtain ⟨seen, after, before, ⟨_, named, _⟩ | ⟨code, _⟩ | ⟨_, named, _⟩⟩ := reads
  · exact absurd named (by decide)
  · exact ⟨seen, after, before, code⟩
  · exact absurd named (by decide)

theorem ReadsVault.active {vault : VaultView} {noteId : UInt32} {start finish : Nat}
    {deadline : Option UInt64}
    (reads : ReadsVault vault noteId start finish (.ok ("active", deadline))) :
    ∃ seen, start ≤ seen ∧ seen ≤ finish ∧ (vault.note seen noteId.toNat).status.val = 1 := by
  obtain ⟨seen, after, before, ⟨code, _⟩ | ⟨_, named, _⟩ | ⟨_, named, _⟩⟩ := reads
  · exact ⟨seen, after, before, code⟩
  · exact absurd named (by decide)
  · exact absurd named (by decide)

theorem confirms_plain {α : Type} {vault : VaultView} {program : Handler α} {start now : Nat}
    (closed : vault.Had 3 start now) (only : program.Only Op.isPlain) :
    Safely vault.Answers (Confirms vault start) (fun _ _ => True) now program := by
  refine safely_of_only only (fun time op le plain => ?_) fun _ _ _ => trivial
  cases op with
  | resetFiles => exact closed.mono le
  | clearPrepared => exact closed.mono le
  | clearSlot => exact closed.mono le
  | setPrepared plan => cases plain
  | removePrepared => cases plain
  | _ => trivial

theorem confirms_dropping {α : Type} {vault : VaultView} {program : Handler α} {start now : Nat}
    (active : vault.Had 1 start now) (only : program.Only Op.isDropping) :
    Safely vault.Answers (Confirms vault start) (fun _ _ => True) now program := by
  refine safely_of_only only (fun time op le dropping => ?_) fun _ _ _ => trivial
  cases op with
  | setPrepared plan => exact active.mono le
  | removePrepared => exact active.mono le
  | resetFiles => cases dropping
  | clearPrepared => cases dropping
  | clearSlot => cases dropping
  | _ => trivial

/-- A confirmation resets the wallet only if its note was closed in the vault during the call, and
drops an escape plan only if the note was active there. -/
theorem confirmWithdrawal_reads (vault : VaultView) (now : Nat) :
    Safely vault.Answers (Confirms vault now) (fun _ _ => True) now confirmWithdrawal := by
  unfold confirmWithdrawal
  rw [safely_bind, status, safely_bind]
  refine safely_call.mpr fun read waits => ⟨trivial, fun reply answered => ?_⟩
  cases reply with
  | error cause => trivial
  | ok walletBefore =>
      obtain ⟨hasNote, pendingRequest, own⟩ := walletBefore
      cases own with
      | none => trivial
      | some note =>
          have held : vault.held read = some note.noteId := (answered _ rfl).symm
          change Safely _ _ _ _ (onchainWithdrawalStatus note.noteId >>= _)
          rw [safely_bind]
          refine (onchainWithdrawalStatus_reads (fun _ _ => trivial) (fun _ _ => trivial)
            note.noteId read).weaken fun later result _ reads => ?_
          cases result with
          | error cause => trivial
          | ok found =>
              obtain ⟨chainStatus, challengeDeadline⟩ := found
              change Safely _ _ _ _ (if chainStatus = "closed" then _ else _)
              split
              · rename_i same
                subst same
                obtain ⟨seen, after, before, code⟩ := reads.closed
                refine confirms_plain ⟨note.noteId, read, seen, waits, after, before, held, code⟩ ?_
                exact (only_call rfl).bind fun _ => (only_call rfl).bind fun _ =>
                  only_resetWallet.bind fun _ => .ret _
              split
              · rename_i same
                subst same
                obtain ⟨seen, after, before, code⟩ := reads.active
                refine confirms_dropping
                  ⟨note.noteId, read, seen, waits, after, before, held, code⟩ ?_
                exact only_dropping.bind fun _ => .ret _
              · trivial

end Status

end ZkApi.Clientd
