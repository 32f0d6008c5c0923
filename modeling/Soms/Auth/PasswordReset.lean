import Mathlib.Data.List.Nodup
import Mathlib.Logic.Function.Basic

/-!
# Requests for a password reset

`request_password_reset` answers for an address with an account and for one without.  The limit
of requests is the same for both, the message of an accepted request is not.
-/

namespace Soms.Auth.PasswordReset

abbrev Text := List Char
abbrev Time := Int

/-- What `lower` and `strip` do to a string, and the collation by which the database compares
addresses. -/
structure Strings where
  lower : Text → Text
  strip : Text → Text
  collation : Text → Text

structure User where
  id : Nat
  email : Text
  username : Text
  countryCode : Option Text
  deriving DecidableEq, Repr

/-- The table of users, in which an address is unique. -/
structure Users (str : Strings) where
  rows : List User
  unique : (rows.map fun user => str.collation user.email).Nodup

/-- What is kept under the code key of an address. -/
structure ResetData where
  userId : Nat
  email : Text
  resetCode : Text
  createdAt : Time
  ipAddress : Text
  userAgent : Text
  used : Bool
  deriving DecidableEq, Repr

/-- A mail in the queue. -/
structure Mail where
  toEmail : Text
  code : Text
  username : Text
  countryCode : Option Text
  deriving DecidableEq, Repr

/-- The users, the keys of Redis with the times they expire at, and the queue of mails. -/
structure State (str : Strings) where
  users : Users str
  rateLimits : Text → Option Time
  codes : Text → Option (ResetData × Time)
  mails : List Mail

/-- A request, with what the services around answer to it: the error of Turnstile, the code that
is drawn and whether the mail can be queued. -/
structure Request where
  at_ : Time
  email : Text
  ipAddress : Text
  userAgent : Text
  isClient : Bool
  turnstile : Option Text
  code : Text
  queued : Bool
  deriving DecidableEq, Repr

structure Response where
  statusCode : Nat
  success : Bool
  text : Text
  deriving DecidableEq, Repr

namespace Strings

variable (str : Strings)

/-- The address of a request, which the endpoint and the service clean. -/
def address (email : Text) : Text :=
  let clean := fun text => str.strip (str.lower text)
  clean (clean email)

def rateLimitKey (email : Text) : Text := "password_reset:rate_limit:".toList ++ str.lower email

def resetCodeKey (email : Text) : Text := "password_reset:code:".toList ++ str.lower email

end Strings

namespace Users

variable {str : Strings}

/-- `select(User).where(User.email == email)` -/
def find (users : Users str) (email : Text) : Option User :=
  users.rows.find? fun user => str.collation user.email = str.collation email

/-- The table with one more user, whose address is not in it. -/
def register (users : Users str) (user : User)
    (hnew : ∀ other ∈ users.rows, str.collation other.email ≠ str.collation user.email) :
    Users str where
  rows := users.rows ++ [user]
  unique := by
    rw [List.map_append, List.nodup_append]
    refine ⟨users.unique, List.nodup_singleton _, fun a ha b hb => ?_⟩
    obtain ⟨other, hother, rfl⟩ := List.mem_map.mp ha
    obtain rfl := List.mem_singleton.mp hb
    exact hnew other hother

end Users

def tooFrequent : Text := "Request too frequent, please try again later".toList
def ifExists : Text := "If this email exists, you will receive a password reset email".toList
def sent : Text := "Password reset email sent, please check your inbox".toList
def notSent : Text := "Email sending failed, please try again later".toList

namespace State

variable {str : Strings}

/-- The key is set and has not expired. -/
def limited (s : State str) (now : Time) (key : Text) : Prop :=
  ∃ expires ∈ s.rateLimits key, now < expires

instance (s : State str) (now : Time) (key : Text) : Decidable (s.limited now key) :=
  decidable_of_iff ((s.rateLimits key).any fun expires => decide (now < expires)) (by
    simp [limited, Option.any_eq_true])

/-- `request_password_reset` of the service.  Redis answers. -/
def requestReset (s : State str) (r : Request) (email : Text) : (Bool × Text) × State str :=
  let email := str.strip (str.lower email)
  let rateLimitKey := str.rateLimitKey email
  match s.users.find email with
  | none =>
    if s.limited r.at_ rateLimitKey then ((false, tooFrequent), s)
    else
      -- a fake rate limit
      ((true, ifExists),
        { s with rateLimits := Function.update s.rateLimits rateLimitKey (some (r.at_ + 60)) })
  | some user =>
    if s.limited r.at_ rateLimitKey then ((false, tooFrequent), s)
    else
      let resetCodeKey := str.resetCodeKey email
      let resetData : ResetData :=
        { userId := user.id, email := email, resetCode := r.code, createdAt := r.at_,
          ipAddress := r.ipAddress, userAgent := r.userAgent, used := false }
      if r.queued then
        ((true, sent),
          { s with
            rateLimits := Function.update s.rateLimits rateLimitKey (some (r.at_ + 60))
            codes := Function.update s.codes resetCodeKey (some (resetData, r.at_ + 600))
            mails := s.mails ++ [⟨email, r.code, user.username, user.countryCode⟩] })
      else
        ((false, notSent),
          { s with
            rateLimits := Function.update s.rateLimits rateLimitKey none
            codes := Function.update s.codes resetCodeKey none })

end State

/-- What Turnstile objects to in a request, where it is asked. -/
def Request.refused (enabled : Bool) (r : Request) : Option Text :=
  if enabled && !r.isClient then r.turnstile else none

/-- The endpoint. -/
def State.respond {str : Strings} (enabled : Bool) (s : State str) (r : Request) :
    Response × State str :=
  match r.refused enabled with
  | some errorMsg => (⟨400, false, "Verification failed: ".toList ++ errorMsg⟩, s)
  | none =>
    let ((success, message), t) := s.requestReset r (str.strip (str.lower r.email))
    (if success then ⟨200, true, message⟩ else ⟨400, false, message⟩, t)

/-- The responses to requests one after another. -/
def State.responses {str : Strings} (enabled : Bool) : State str → List Request → List Response
  | _, [] => []
  | s, r :: rs => (s.respond enabled r).1 :: responses enabled (s.respond enabled r).2 rs

/-! ## Two tables -/

variable {str : Strings} {user : User} {s t : State str} {r : Request}

/-- The request is for the address of the user. -/
def Request.IsFor (str : Strings) (user : User) (r : Request) : Prop :=
  str.collation user.email = str.collation (str.address r.email)

instance (r : Request) : Decidable (r.IsFor str user) := inferInstanceAs (Decidable (_ = _))

/-- No request for the address of the user gets past Turnstile and the limit. -/
def Unnoticed (enabled : Bool) (user : User) : State str → List Request → Prop
  | _, [] => True
  | s, r :: rs =>
    (r.refused enabled = none → r.IsFor str user →
      s.limited r.at_ (str.rateLimitKey (str.address r.email))) ∧
      Unnoticed enabled user (s.respond enabled r).2 rs

/-- The second state has the user besides, and the same limits. -/
structure Alike (user : User) (s t : State str) : Prop where
  rows : t.users.rows = s.users.rows ++ [user]
  rateLimits : t.rateLimits = s.rateLimits

theorem Alike.find (h : Alike user s t) (email : Text) : t.users.find email =
    (s.users.find email).or
      (if str.collation user.email = str.collation email then some user else none) := by
  rw [Users.find, h.rows, List.find?_append]
  congr 1
  by_cases hsame : str.collation user.email = str.collation email
  · simp [hsame]
  · simp [hsame]

theorem Alike.limited (h : Alike user s t) (now : Time) (key : Text) :
    t.limited now key ↔ s.limited now key := by
  rw [State.limited, State.limited, h.rateLimits]

/-- What a request whose mail is queued does: where it is not limited it sets the limit, whether
there is an account or not. -/
theorem requestReset_eq (hqueued : r.queued = true) (email : Text) :
    let key := str.rateLimitKey (str.strip (str.lower email))
    (s.requestReset r email).1 =
        (if s.limited r.at_ key then (false, tooFrequent)
          else
            (true, if s.users.find (str.strip (str.lower email)) = none then ifExists else sent)) ∧
      (s.requestReset r email).2.users = s.users ∧
      (s.requestReset r email).2.rateLimits =
        if s.limited r.at_ key then s.rateLimits
        else Function.update s.rateLimits key (some (r.at_ + 60)) := by
  unfold State.requestReset
  dsimp only
  by_cases hlimited : s.limited r.at_ (str.rateLimitKey (str.strip (str.lower email)))
  · simp only [if_pos hlimited]
    cases s.users.find (str.strip (str.lower email)) with
    | none => exact ⟨rfl, rfl, rfl⟩
    | some found => exact ⟨rfl, rfl, rfl⟩
  · simp only [if_neg hlimited, if_pos hqueued]
    cases s.users.find (str.strip (str.lower email)) with
    | none => exact ⟨rfl, rfl, rfl⟩
    | some found => exact ⟨rfl, rfl, rfl⟩

/-- One request in both states. -/
theorem Alike.respond (h : Alike user s t) (enabled : Bool) (hqueued : r.queued = true)
    (hnew : ∀ other ∈ s.users.rows, str.collation other.email ≠ str.collation user.email) :
    ((s.respond enabled r).1 = (t.respond enabled r).1 ↔
      (r.refused enabled = none → r.IsFor str user →
        s.limited r.at_ (str.rateLimitKey (str.address r.email)))) ∧
      Alike user (s.respond enabled r).2 (t.respond enabled r).2 ∧
      (s.respond enabled r).2.users = s.users := by
  cases hrefused : r.refused enabled with
  | some errorMsg =>
    have hrespond : ∀ s : State str, s.respond enabled r =
        (⟨400, false, "Verification failed: ".toList ++ errorMsg⟩, s) := by
      intro s
      rw [State.respond, hrefused]
    rw [hrespond s, hrespond t]
    exact ⟨⟨fun _ => nofun, fun _ => rfl⟩, h, rfl⟩
  | none =>
    obtain ⟨hs, hsUsers, hsLimits⟩ :=
      @requestReset_eq str s r hqueued (str.strip (str.lower r.email))
    obtain ⟨ht, htUsers, htLimits⟩ :=
      @requestReset_eq str t r hqueued (str.strip (str.lower r.email))
    have hrespond : ∀ s : State str, s.respond enabled r =
        (if (s.requestReset r (str.strip (str.lower r.email))).1.1 then
            ⟨200, true, (s.requestReset r (str.strip (str.lower r.email))).1.2⟩
          else ⟨400, false, (s.requestReset r (str.strip (str.lower r.email))).1.2⟩,
          (s.requestReset r (str.strip (str.lower r.email))).2) := by
      intro s
      rw [State.respond, hrefused]
    have hkey : str.strip (str.lower (str.strip (str.lower r.email))) = str.address r.email := rfl
    simp only [hkey] at hs ht hsLimits htLimits
    rw [hrespond s, hrespond t]
    refine ⟨?_, ⟨?_, ?_⟩, hsUsers⟩
    · simp only [hs, ht, h.limited, h.find]
      by_cases hlimited : s.limited r.at_ (str.rateLimitKey (str.address r.email))
      · simp [hlimited]
      · simp only [hlimited, if_false, if_true, imp_false]
        by_cases hfor : r.IsFor str user
        · have hnone : s.users.find (str.address r.email) = none := by
            refine List.find?_eq_none.mpr fun other hother hsame => ?_
            exact hnew other hother ((of_decide_eq_true hsame).trans hfor.symm)
          have htexts : ifExists ≠ sent := by decide
          rw [hnone, Option.none_or, if_pos (show str.collation user.email = _ from hfor)]
          simp [htexts, hfor]
        · rw [if_neg (show ¬ str.collation user.email = _ from hfor), Option.or_none]
          simp [hfor]
    · rw [hsUsers, htUsers, h.rows]
    · rw [hsLimits, htLimits, h.rateLimits]
      simp only [h.limited]

theorem Alike.responses_eq_iff (h : Alike user s t) (enabled : Bool)
    (hnew : ∀ other ∈ s.users.rows, str.collation other.email ≠ str.collation user.email)
    (requests : List Request) (hqueued : ∀ r ∈ requests, r.queued = true) :
    s.responses enabled requests = t.responses enabled requests ↔
      Unnoticed enabled user s requests := by
  induction requests generalizing s t with
  | nil => exact ⟨fun _ => trivial, fun _ => rfl⟩
  | cons r rs ih =>
    rw [List.forall_mem_cons] at hqueued
    obtain ⟨hfirst, halike, husers⟩ := h.respond enabled hqueued.1 hnew
    rw [State.responses, State.responses, List.cons_eq_cons, Unnoticed, hfirst,
      ih halike (by rwa [husers]) hqueued.2]

/-- Requests whose mails are queued get the same responses with and without the account exactly
if none for its address gets past the limit. -/
theorem responses_register_iff (enabled : Bool) (s : State str) (user : User)
    (hnew : ∀ other ∈ s.users.rows, str.collation other.email ≠ str.collation user.email)
    (requests : List Request) (hqueued : ∀ r ∈ requests, r.queued = true) :
    s.responses enabled requests =
        { s with users := s.users.register user hnew }.responses enabled requests ↔
      Unnoticed enabled user s requests := by
  have halike : Alike user s { s with users := s.users.register user hnew } := ⟨rfl, rfl⟩
  exact halike.responses_eq_iff enabled hnew requests hqueued

/-- Strings that are compared as they are. -/
def plainStrings : Strings := ⟨id, id, id⟩

/-- Nobody has an account, and nobody has asked for a reset. -/
def emptyState : State plainStrings := ⟨⟨[], List.nodup_nil⟩, fun _ => none, fun _ => none, []⟩

def sampleUser : User := ⟨7, "a@b.c".toList, "a".toList, none⟩

def sampleRequest (email : Text) : Request :=
  ⟨0, email, [], [], true, none, "00000000".toList, true⟩

theorem responses_register_other :
    emptyState.responses true [sampleRequest "x@y.z".toList] =
      { emptyState with users := emptyState.users.register sampleUser nofun }.responses true
        [sampleRequest "x@y.z".toList] :=
  (responses_register_iff true emptyState sampleUser nofun [sampleRequest "x@y.z".toList]
    (by decide)).mpr ⟨fun _ hfor => absurd hfor (by decide), trivial⟩

/-- The first request for an address tells whether it has an account. -/
theorem responses_register_ne :
    emptyState.responses true [sampleRequest "a@b.c".toList] ≠
      { emptyState with users := emptyState.users.register sampleUser nofun }.responses true
        [sampleRequest "a@b.c".toList] := by
  decide

end Soms.Auth.PasswordReset
