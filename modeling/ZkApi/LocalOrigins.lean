import Mathlib.Data.List.TakeWhile
import ZkApi.ClientTypes
import ZkApi.ServerConfig
import ZkApi.UriAuthority

/-!
# Local origins and URLs

The daemon lets local pages call it, and the daemon and the server accept endpoints that are
secure or local.  All three compare the beginning of a text, so what follows the name of the host
decides whether the host is the one that the text names.
-/

namespace ZkApi

open Uri

namespace Clientd

/-- The predicate of `local_cors_layer`. -/
def allowsOrigin (origin : String) : Bool :=
  startsWith origin "http://localhost" || startsWith origin "http://127.0.0.1"

end Clientd

section Specification

def loopbackHosts : List (List Char) :=
  ["localhost".toList, "127.0.0.1".toList]

/-- An origin that the gate accepts has a loopback host. -/
def OriginIsLocal (gate : String → Bool) (origin : String) : Prop :=
  gate origin = true → HostIn loopbackHosts origin.toList

/-- A URL that the gate accepts is HTTPS or has a loopback host. -/
def UrlIsSecureOrLocal (gate : String → Bool) (url : String) : Prop :=
  gate url = true → scheme url.toList = some "https".toList ∨ HostIn loopbackHosts url.toList

/-- The text after the name of a loopback host leaves it the host: up to the path it is nothing
or a port, or it makes the name part of the user information of a loopback host. -/
def LeavesHost (rest : List Char) : Prop :=
  IsPort (rest.takeWhile inAuthority) ∨
    ∃ user host port, rest.takeWhile inAuthority = user ++ '@' :: (host ++ port) ∧
      isUserinfo user = true ∧ host ∈ loopbackHosts ∧ IsPort port

end Specification

section Hosts

theorem loopbackHosts_names : ∀ host ∈ loopbackHosts, isRegName host = true ∧ ':' ∉ host ∧
    ∃ first rest, host = first :: rest ∧ first ≠ '[' := by
  intro host member
  simp only [loopbackHosts, List.mem_cons, List.not_mem_nil, or_false] at member
  rcases member with rfl | rfl
  · exact ⟨by decide, by decide, 'l', _, rfl, by decide⟩
  · exact ⟨by decide, by decide, '1', _, rfl, by decide⟩

/-- A name that is part of the user information does not change whether it is well formed. -/
theorem isUserinfo_append {host : List Char} (member : host ∈ loopbackHosts) (user : List Char) :
    isUserinfo (host ++ user) = isUserinfo user := by
  simp only [loopbackHosts, List.mem_cons, List.not_mem_nil, or_false] at member
  rcases member with rfl | rfl <;> rfl

theorem not_at_mem_userinfo {user : List Char} (valid : isUserinfo user = true) : '@' ∉ user := by
  intro member
  unfold isUserinfo at valid
  induction user using isEncoded.induct with
  | case1 => cases member
  | case2 high low rest ih =>
      simp only [isEncoded, Bool.and_eq_true] at valid
      rcases List.mem_cons.mp member with same | member
      · exact absurd same (by decide)
      · rcases List.mem_cons.mp member with rfl | member
        · exact absurd valid.1.1 (by decide)
        · rcases List.mem_cons.mp member with rfl | member
          · exact absurd valid.1.2 (by decide)
          · exact ih valid.2 member
  | case3 letter rest other ih =>
      rw [isEncoded, Bool.and_eq_true] at valid
      · rcases List.mem_cons.mp member with rfl | member
        · exact absurd valid.1 (by decide)
        · exact ih valid.2 member
      · exact other

/-- No loopback host is the beginning of a text that begins with another one and ends with a
port. -/
theorem loopbackHosts_prefix_free {host other part port : List Char} (member : host ∈ loopbackHosts)
    (known : other ∈ loopbackHosts) (same : host ++ part = other ++ port) :
    host = other ∧ port = part := by
  simp only [loopbackHosts, List.mem_cons, List.not_mem_nil, or_false] at member known
  rcases member with rfl | rfl <;> rcases known with rfl | rfl
  · exact ⟨rfl, (List.append_cancel_left same).symm⟩
  · have first := congrArg List.head? same
    simp at first
  · have first := congrArg List.head? same
    simp at first
  · exact ⟨rfl, (List.append_cancel_left same).symm⟩

/-- Whether an authority that begins with a loopback host names one depends on what follows. -/
theorem components_local_iff {host : List Char} (member : host ∈ loopbackHosts) (part : List Char) :
    (∃ found, components (host ++ part) = some found ∧ found.host ∈ loopbackHosts) ↔
      IsPort part ∨ ∃ user other port, part = user ++ '@' :: (other ++ port) ∧
        isUserinfo user = true ∧ other ∈ loopbackHosts ∧ IsPort port := by
  have plain : '@' ∉ host := by
    simp only [loopbackHosts, List.mem_cons, List.not_mem_nil, or_false] at member
    rcases member with rfl | rfl <;> decide
  have names := loopbackHosts_names
  unfold components
  rw [dropWhile_ne_eq plain, takeWhile_ne_eq plain, isUserinfo_append member]
  cases dropped : part.dropWhile (· != '@') with
  | nil =>
      -- Without an at sign the text begins with its host.
      have unsigned : '@' ∉ part := by
        intro inside
        have whole : part.takeWhile (· != '@') = part := by
          have split := List.takeWhile_append_dropWhile (p := (· != '@')) (l := part)
          rwa [dropped, List.append_nil] at split
        rw [← whole] at inside
        exact absurd (List.mem_takeWhile_imp inside) (by decide)
      dsimp only
      rw [hostAndPort_iff _ names]
      constructor
      · rintro ⟨other, known, port, same, ends⟩
        left
        rwa [(loopbackHosts_prefix_free member known same).2] at ends
      · rintro (ends | ⟨user, other, port, rfl, -⟩)
        · exact ⟨host, member, part, rfl, ends⟩
        · exact absurd (by simp) unsigned
  | cons head rest =>
      have sign := dropWhile_ne_head dropped
      subst sign
      have whole : part = part.takeWhile (· != '@') ++ '@' :: rest := by
        rw [← dropped, List.takeWhile_append_dropWhile]
      dsimp only
      constructor
      · rintro ⟨found, parsed, known⟩
        right
        split at parsed
        · rename_i valid
          obtain ⟨other, held, port, same, ends⟩ :=
            (hostAndPort_iff _ names rest).mp ⟨found, parsed, known⟩
          exact ⟨_, other, port, by rw [← same]; exact whole, valid, held, ends⟩
        · cases parsed
      · rintro (ends | ⟨user, other, port, same, valid, held, ends⟩)
        · rcases ends with rfl | ⟨digits, rfl, numeric⟩
          · cases dropped
          · have inside : '@' ∈ digits := by
              have found : '@' ∈ ':' :: digits := by
                rw [whole]
                simp
              simpa using found
            exact absurd (List.all_eq_true.mp numeric '@' inside) (by decide)
        · have before := not_at_mem_userinfo valid
          have taken : part.takeWhile (· != '@') = user := by
            rw [same, takeWhile_ne_eq before]
            simp
          have left : rest = other ++ port := by
            have after : part.dropWhile (· != '@') = '@' :: (other ++ port) := by
              rw [same, dropWhile_ne_eq before]
              simp
            rw [dropped] at after
            exact (List.cons.inj after).2
          rw [taken, if_pos valid]
          exact (hostAndPort_iff _ names rest).mpr ⟨other, held, port, left, ends⟩

/-- A URL whose authority begins with a loopback host has one if what follows leaves it. -/
theorem hostIn_iff {host : List Char} (member : host ∈ loopbackHosts) (rest : List Char) :
    HostIn loopbackHosts ("http://".toList ++ (host ++ rest)) ↔ LeavesHost rest := by
  have text : authorityText ("http://".toList ++ (host ++ rest)) =
      some (host ++ rest.takeWhile inAuthority) := by
    simp only [loopbackHosts, List.mem_cons, List.not_mem_nil, or_false] at member
    rcases member with rfl | rfl <;> rfl
  rw [HostIn, authority, text, Option.bind_some]
  exact components_local_iff member _

theorem scheme_http (rest : List Char) : scheme ("http://".toList ++ rest) = some "http".toList :=
  rfl

theorem scheme_https (rest : List Char) :
    scheme ("https://".toList ++ rest) = some "https".toList :=
  rfl

end Hosts

section Gates

theorem Clientd.startsWith_iff (text pattern : String) :
    Clientd.startsWith text pattern = true ↔ ∃ rest, text.toList = pattern.toList ++ rest := by
  rw [Clientd.startsWith, List.isPrefixOf_iff_prefix]
  exact ⟨fun ⟨rest, same⟩ => ⟨rest, same.symm⟩, fun ⟨rest, same⟩ => ⟨rest, same.symm⟩⟩

theorem isSecureOrLoopbackUrl_eq (url : String) :
    isSecureOrLoopbackUrl url = Clientd.isSecureOrLoopbackUrl url := by
  have prefixes : ∀ pattern : String, url.startsWith pattern = Clientd.startsWith url pattern := by
    intro pattern
    rw [Bool.eq_iff_iff, String.startsWith_string_iff, Clientd.startsWith,
      List.isPrefixOf_iff_prefix]
  simp only [isSecureOrLoopbackUrl, Clientd.isSecureOrLoopbackUrl, prefixes]

/-- A local origin that the gate accepts is one if what follows the host leaves it. -/
theorem originIsLocal_iff (origin : String) :
    OriginIsLocal Clientd.allowsOrigin origin ↔ ∀ host ∈ loopbackHosts, ∀ rest,
      origin.toList = "http://".toList ++ (host ++ rest) → LeavesHost rest := by
  constructor
  · intro isLocal host member rest same
    rw [← hostIn_iff member, ← same]
    apply isLocal
    simp only [loopbackHosts, List.mem_cons, List.not_mem_nil, or_false] at member
    simp only [Clientd.allowsOrigin, Bool.or_eq_true, Clientd.startsWith_iff]
    rcases member with rfl | rfl
    · exact Or.inl ⟨rest, same⟩
    · exact Or.inr ⟨rest, same⟩
  · intro leaves accepted
    simp only [Clientd.allowsOrigin, Bool.or_eq_true, Clientd.startsWith_iff] at accepted
    have found : ∃ host ∈ loopbackHosts, ∃ rest,
        origin.toList = "http://".toList ++ (host ++ rest) := by
      rcases accepted with ⟨rest, same⟩ | ⟨rest, same⟩
      · exact ⟨"localhost".toList, by simp [loopbackHosts], rest, same⟩
      · exact ⟨"127.0.0.1".toList, by simp [loopbackHosts], rest, same⟩
    obtain ⟨host, member, rest, same⟩ := found
    rw [same, hostIn_iff member]
    exact leaves host member rest same

/-- A URL without encryption that the gate accepts is local if what follows the colon leaves the
host. -/
theorem urlIsSecureOrLocal_iff (url : String) :
    UrlIsSecureOrLocal Clientd.isSecureOrLoopbackUrl url ↔ ∀ host ∈ loopbackHosts, ∀ rest,
      url.toList = "http://".toList ++ (host ++ ':' :: rest) → LeavesHost (':' :: rest) := by
  constructor
  · intro secure host member rest same
    have accepted : Clientd.isSecureOrLoopbackUrl url = true := by
      simp only [loopbackHosts, List.mem_cons, List.not_mem_nil, or_false] at member
      simp only [Clientd.isSecureOrLoopbackUrl, Bool.or_eq_true, Clientd.startsWith_iff]
      rcases member with rfl | rfl
      · exact Or.inr ⟨rest, same⟩
      · exact Or.inl (Or.inr ⟨rest, same⟩)
    rcases secure accepted with https | isLocal
    · rw [same, scheme_http] at https
      exact absurd https (by decide)
    · rwa [same, hostIn_iff member] at isLocal
  · intro leaves accepted
    simp only [Clientd.isSecureOrLoopbackUrl, Bool.or_eq_true, Clientd.startsWith_iff] at accepted
    rcases accepted with (⟨rest, same⟩ | ⟨rest, same⟩) | ⟨rest, same⟩
    · left
      rw [same, scheme_https]
    · right
      have member : "127.0.0.1".toList ∈ loopbackHosts := by simp [loopbackHosts]
      have split : url.toList = "http://".toList ++ ("127.0.0.1".toList ++ ':' :: rest) := same
      rw [split, hostIn_iff member]
      exact leaves _ member rest split
    · right
      have member : "localhost".toList ∈ loopbackHosts := by simp [loopbackHosts]
      have split : url.toList = "http://".toList ++ ("localhost".toList ++ ':' :: rest) := same
      rw [split, hostIn_iff member]
      exact leaves _ member rest split

/-- The gates keep what they promise of a text exactly if the text that follows the name of a
loopback host leaves it the host.  The URL gates look at such a name only before a colon. -/
theorem gates_local_iff (text : String) :
    (OriginIsLocal Clientd.allowsOrigin text ↔ ∀ host ∈ loopbackHosts, ∀ rest,
        text.toList = "http://".toList ++ (host ++ rest) → LeavesHost rest) ∧
      (UrlIsSecureOrLocal Clientd.isSecureOrLoopbackUrl text ↔ ∀ host ∈ loopbackHosts, ∀ rest,
        text.toList = "http://".toList ++ (host ++ ':' :: rest) → LeavesHost (':' :: rest)) ∧
      (UrlIsSecureOrLocal isSecureOrLoopbackUrl text ↔ ∀ host ∈ loopbackHosts, ∀ rest,
        text.toList = "http://".toList ++ (host ++ ':' :: rest) → LeavesHost (':' :: rest)) := by
  have copies : isSecureOrLoopbackUrl = Clientd.isSecureOrLoopbackUrl :=
    funext isSecureOrLoopbackUrl_eq
  rw [copies]
  exact ⟨originIsLocal_iff text, urlIsSecureOrLocal_iff text, urlIsSecureOrLocal_iff text⟩

/-- A host that only begins like a loopback host is accepted, and so is a loopback host in the
user information of another one. -/
theorem remote_hosts_accepted :
    ¬ OriginIsLocal Clientd.allowsOrigin "http://localhost.example.com" ∧
      ¬ UrlIsSecureOrLocal Clientd.isSecureOrLoopbackUrl "http://localhost:80@example.com" ∧
        ¬ UrlIsSecureOrLocal isSecureOrLoopbackUrl "http://localhost:80@example.com" := by
  have origin : ¬ OriginIsLocal Clientd.allowsOrigin "http://localhost.example.com" := by
    intro isLocal
    obtain ⟨found, parsed, member⟩ := isLocal (by decide)
    have host : authority "http://localhost.example.com".toList =
      some ⟨none, "localhost.example.com".toList, none⟩ := by decide
    rw [host] at parsed
    cases parsed
    exact absurd member (by decide)
  have url : ¬ UrlIsSecureOrLocal Clientd.isSecureOrLoopbackUrl
      "http://localhost:80@example.com" := by
    intro secure
    rcases secure (by decide) with https | ⟨found, parsed, member⟩
    · exact absurd https (by decide)
    · have host : authority "http://localhost:80@example.com".toList =
        some ⟨some "localhost:80".toList, "example.com".toList, none⟩ := by decide
      rw [host] at parsed
      cases parsed
      exact absurd member (by decide)
  have copies : isSecureOrLoopbackUrl = Clientd.isSecureOrLoopbackUrl :=
    funext isSecureOrLoopbackUrl_eq
  exact ⟨origin, url, copies ▸ url⟩

end Gates

end ZkApi
