import AtlasCore.Evidence.Block
import AtlasCore.Evidence.Reading

/-!
# A credential and its origin

The adapters that send a credential open their requests with a handler of their own for redirects.
Where a redirect leads to is up to the servers, one after the other, and none of them is trusted
with more than the requests it is sent.

Along any chain of redirects, a request carries the credential exactly as long as the chain has
never left the origin it was configured for (`follow_carries`): a chain that leaves and comes back
comes back without it.
-/

set_option autoImplicit false

namespace AtlasCore

open Py

namespace Http

/-- What `_origin` returns: the scheme, the host and the port. -/
structure Origin where
  scheme : Str
  hostname : Str
  port : Option ℕ
  deriving DecidableEq

/-- `urllib.request.Request`, with its headers as they are stored. -/
structure Request where
  fullUrl : Str
  method : Str
  headers : List (Str × Str)

/-- `"Authorization"`. -/
def AUTHORIZATION : Str := str "Authorization"

/-- The name of a header is in a request. -/
def Request.carries (r : Request) : Prop := AUTHORIZATION ∈ r.headers.map Prod.fst

/-- `request.remove_header(name)`: every header of this name goes, the others stay in their order.
-/
def Request.removeHeader (r : Request) (name : Str) : Request :=
  { r with headers := r.headers.filter fun h ↦ h.1 ≠ name }

/-- What `urlsplit` returns, as far as it is read; a port that is no number raises where it is
read. -/
structure SplitResult where
  scheme : Str
  hostname : Option Str
  port : Except Exc (Option ℕ)

/-- `urllib`, as far as redirects go, and `str.lower`. -/
structure Urllib where
  urlsplit : Str → Except Exc SplitResult
  lower : Str → Str
  /-- `HTTPRedirectHandler.redirect_request`: the url and the method of the request that follows. -/
  redirect : Request → ℕ → Str → Except Exc (Option (Str × Str))
  /-- The headers that describe a body, which a redirect does not copy. -/
  isContentHeader : Str → Bool
  copied : isContentHeader AUTHORIZATION = false

section
variable (lib : Urllib)

/-- `_origin`: the scheme, the host and the port of a url, in small letters.  A url without a host
has the empty one; a port that is no number raises. -/
def Urllib.origin (url : Str) : Except Exc Origin := do
  let parts ← lib.urlsplit url
  return ⟨lib.lower parts.scheme, lib.lower (parts.hostname.getD []), ← parts.port⟩

/-- `super().redirect_request(req, fp, code, msg, headers, newurl)`: the request that urllib makes
for a redirect it follows.  It copies the headers, except those that describe a body. -/
def Urllib.redirectRequest (req : Request) (code : ℕ) (newurl : Str) :
    Except Exc (Option Request) := do
  match ← lib.redirect req code newurl with
  | none => return none
  | some (url, method) =>
    return some ⟨url, method, req.headers.filter fun h ↦ !lib.isContentHeader h.1⟩

/-- `_SameOriginCredentials.redirect_request`.  The credential is taken out of a request that leaves
the origin of the one before it, whichever that was. -/
def redirectRequest (req : Request) (code : ℕ) (newurl : Str) : Except Exc (Option Request) := do
  match ← lib.redirectRequest req code newurl with
  | none => return none
  | some new =>
    if (← lib.origin new.fullUrl) ≠ (← lib.origin req.fullUrl) then
      return some (new.removeHeader AUTHORIZATION)
    else return some new

/-- The requests that are sent when the servers answer with these redirects. -/
def follow : Request → List (ℕ × Str) → List Request
  | req, [] => [req]
  | req, (code, newurl) :: rest =>
    match redirectRequest lib req code newurl with
    | .ok (some new) => req :: follow new rest
    | _ => [req]

end

section
variable {lib : Urllib} {req new : Request} {code : ℕ} {newurl : Str}

theorem not_carries_removeHeader : ¬ (req.removeHeader AUTHORIZATION).carries := by
  intro h
  obtain ⟨p, hp, heq⟩ := List.mem_map.mp h
  exact of_decide_eq_true (List.mem_filter.mp hp).2 heq

/-- A redirect copies the credential as it stands. -/
theorem carries_super (h : lib.redirectRequest req code newurl = .ok (some new)) :
    new.carries ↔ req.carries := by
  obtain ⟨found, -, h⟩ := Except.bind_eq_ok.mp h
  cases found with
  | none => cases h
  | some p =>
    obtain rfl := Option.some.inj (Except.ok.inj h)
    simp only [Request.carries, List.mem_map, List.mem_filter]
    constructor
    · rintro ⟨p, ⟨hp, -⟩, heq⟩
      exact ⟨p, hp, heq⟩
    · rintro ⟨p, hp, heq⟩
      exact ⟨p, ⟨hp, by rw [heq, lib.copied]; rfl⟩, heq⟩

/-- The handler passes the credential on within its origin, and only there. -/
theorem carries_redirectRequest (h : redirectRequest lib req code newurl = .ok (some new)) :
    new.carries ↔ req.carries ∧ lib.origin new.fullUrl = lib.origin req.fullUrl := by
  obtain ⟨found, hfound, h⟩ := Except.bind_eq_ok.mp h
  cases found with
  | none => cases h
  | some next =>
    obtain ⟨there, hthere, h⟩ := Except.bind_eq_ok.mp h
    obtain ⟨here, hhere, h⟩ := Except.bind_eq_ok.mp h
    rw [← carries_super hfound]
    split_ifs at h with hleft
    · obtain rfl := Option.some.inj (Except.ok.inj h)
      have hurl : (next.removeHeader AUTHORIZATION).fullUrl = next.fullUrl := rfl
      rw [hurl, hthere, hhere, Except.ok.injEq]
      exact ⟨fun h ↦ absurd h not_carries_removeHeader, fun h ↦ absurd h.2 hleft⟩
    · obtain rfl := Option.some.inj (Except.ok.inj h)
      rw [hthere, hhere, not_not.mp hleft]
      exact ⟨fun h ↦ ⟨h, rfl⟩, fun h ↦ h.1⟩

/-- Only the first request is sent. -/
theorem carries_first {before after : List Request} {sent : Request}
    (h : [req] = before ++ sent :: after) : sent.carries ↔ req.carries ∧
      ∀ r ∈ before ++ [sent], lib.origin r.fullUrl = lib.origin req.fullUrl := by
  cases before with
  | nil =>
    obtain ⟨rfl, -⟩ := List.cons.inj h
    simp
  | cons other before => simp at h

/-- The first request that is sent is not after any other. -/
theorem first_mem {first sent : Request} {rest before after : List Request}
    (h : first :: rest = before ++ sent :: after) : first ∈ before ++ [sent] := by
  cases before with
  | nil =>
    rw [List.nil_append] at h
    exact List.mem_singleton.mpr (List.cons.inj h).1
  | cons other before =>
    rw [List.cons_append] at h
    exact (List.cons.inj h).1 ▸ List.mem_cons_self

theorem exists_follow (lib : Urllib) (req : Request) (hops : List (ℕ × Str)) :
    ∃ rest, follow lib req hops = req :: rest := by
  cases hops with
  | nil => exact ⟨[], rfl⟩
  | cons hop rest =>
    rw [follow]
    split
    · exact ⟨_, rfl⟩
    · exact ⟨[], rfl⟩

end

/-- **A credential stays at its origin**, wherever the servers redirect to: a request that is sent
carries it exactly when the first one did and no request up to this one was to another origin. -/
theorem follow_carries (lib : Urllib) (req : Request) (hops : List (ℕ × Str)) :
    ∀ before sent after, follow lib req hops = before ++ sent :: after →
      (sent.carries ↔ req.carries ∧
        ∀ r ∈ before ++ [sent], lib.origin r.fullUrl = lib.origin req.fullUrl) := by
  induction hops generalizing req with
  | nil => exact fun before sent after h ↦ carries_first h
  | cons hop rest ih =>
    intro before sent after h
    rw [follow] at h
    split at h
    · rename_i new hnew
      cases before with
      | nil =>
        rw [List.nil_append] at h
        obtain ⟨rfl, -⟩ := List.cons.inj h
        simp
      | cons other before =>
        rw [List.cons_append] at h
        obtain ⟨rfl, hrest⟩ := List.cons.inj h
        have hmem : new ∈ before ++ [sent] := by
          obtain ⟨more, hmore⟩ := exists_follow lib new rest
          exact first_mem (hmore.symm.trans hrest)
        rw [ih new before sent after hrest, carries_redirectRequest hnew]
        constructor
        · rintro ⟨⟨hcarries, horigin⟩, hall⟩
          refine ⟨hcarries, fun r hr ↦ ?_⟩
          rcases List.mem_cons.mp hr with rfl | hr
          · rfl
          · exact (hall r hr).trans horigin
        · rintro ⟨hcarries, hall⟩
          have horigin := hall new (List.mem_cons_of_mem _ hmem)
          refine ⟨⟨hcarries, horigin⟩, fun r hr ↦ ?_⟩
          exact (hall r (List.mem_cons_of_mem _ hr)).trans horigin.symm
    · exact carries_first h

/-- Two servers that redirect to each other, so that a chain can leave an origin and come back to
it. -/
def twoServers : Urllib where
  urlsplit url :=
    .ok ⟨str "https", some (if url = str "https://b/" then str "b" else str "a"), .ok none⟩
  lower := asciiRuntime.lower
  redirect _ _ newurl := .ok (some (newurl, str "GET"))
  isContentHeader name := name = str "Content-length" || name = str "Content-type"
  copied := by decide

/-- A request with a credential, as the transport makes it before the first redirect. -/
def asked : Request := ⟨str "https://a/", str "GET", [(AUTHORIZATION, str "Bearer t")]⟩

/-- The chain comes back to the first server, and the credential does not. -/
theorem follow_carries_back : asked.carries ∧
    follow twoServers asked [(302, str "https://b/"), (302, str "https://a/")] =
      [asked, ⟨str "https://b/", str "GET", []⟩, ⟨str "https://a/", str "GET", []⟩] ∧
    ¬ Request.carries ⟨str "https://a/", str "GET", []⟩ := by
  have hfollow : follow twoServers asked [(302, str "https://b/"), (302, str "https://a/")] =
      [asked, ⟨str "https://b/", str "GET", []⟩, ⟨str "https://a/", str "GET", []⟩] := rfl
  refine ⟨List.mem_cons_self, hfollow, fun hback ↦ ?_⟩
  obtain ⟨-, hall⟩ := (follow_carries twoServers asked _
    [asked, ⟨str "https://b/", str "GET", []⟩] _ [] hfollow).mp hback
  have haway := hall ⟨str "https://b/", str "GET", []⟩ (by simp)
  exact absurd (congrArg Origin.hostname (Except.ok.inj haway)) (by decide)

end Http

end AtlasCore
