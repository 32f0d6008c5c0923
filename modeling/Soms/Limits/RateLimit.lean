import Mathlib
import Soms.Library.Run
import Soms.Library.SlidingLog

/-!
# Rate limits

`dependencies/rate_limit.py`: the script that Redis runs for a call, and the limiters of the
application with their keys.  The moment of a call is read from the clock of the application
before Redis runs the script, while the expiry of a key goes by the clock of Redis.
-/

namespace Soms.Limits

abbrev Text := List Char

/-! ## Sorted sets -/

/-- The members of a key with their scores, and when the key expires.  A key that is not there
has no members. -/
structure SortedSet where
  members : List (Text × Int)
  expiresAt : Option Nat

namespace SortedSet

def missing : SortedSet := ⟨[], none⟩

/-- What is left of the key at a time. -/
def live (clock : Nat) (s : SortedSet) : SortedSet :=
  if s.expiresAt.any (· ≤ clock) then missing else s

/-- `ZREMRANGEBYSCORE`; without members the key goes. -/
def zremrangebyscore (lo hi : Int) (s : SortedSet) : SortedSet :=
  let left := s.members.filter fun e => ¬(lo ≤ e.2 ∧ e.2 ≤ hi)
  if left.isEmpty then missing else { s with members := left }

/-- `ZCOUNT` -/
def zcount (lo hi : Int) (s : SortedSet) : Nat := s.members.countP fun e => lo ≤ e.2 ∧ e.2 ≤ hi

/-- `ZADD` -/
def zadd (score : Int) (member : Text) (s : SortedSet) : SortedSet :=
  { s with members := s.members.filter (fun e => e.1 ≠ member) ++ [(member, score)] }

/-- `PEXPIRE` -/
def pexpire (clock milliseconds : Nat) (s : SortedSet) : SortedSet :=
  if s.members.isEmpty then s else { s with expiresAt := some (clock + milliseconds) }

end SortedSet

/-! ## The script -/

structure Rate where
  limit : Nat
  interval : Nat
  deriving DecidableEq

/-- `member..':'..i` -/
def numbered (member : Text) (i : Nat) : Text := member ++ ':' :: Nat.toDigits 10 i

/-- The loop over the rates. -/
def hasRoom (now : Int) (weight : Nat) (rates : List Rate) (s : SortedSet) : Bool :=
  rates.all fun rate => !(rate.limit < s.zcount (now - rate.interval) now + weight)

/-- The loop over the weight. -/
def addMembers (now : Int) (member : Text) (weight : Nat) (s : SortedSet) : SortedSet :=
  (List.range weight).foldl (fun s i => s.zadd now (numbered member (i + 1))) s

/-- `REDIS_RATE_LIMIT_SCRIPT` -/
def redisRateLimitScript (clock : Nat) (now : Int) (member : Text) (weight maxInterval : Nat)
    (rates : List Rate) (bucket : SortedSet) : Bool × SortedSet :=
  let bucket := (bucket.live clock).zremrangebyscore 0 (now - maxInterval)
  if hasRoom now weight rates bucket then
    (true, (addMembers now member weight bucket).pexpire clock (maxInterval + 10000))
  else (false, bucket)

/-! ## Limiters -/

/-- The rates are sorted when a limiter is made. -/
structure RedisRateLimiter where
  rates : List Rate
  bucketKey : Text
  weight : Nat
  sorted : rates.Pairwise fun a b => a.interval ≤ b.interval

/-- `RedisRateLimiter.__init__` -/
def RedisRateLimiter.init (rates : List Rate) (bucketKey : String) (weight : Nat) :
    RedisRateLimiter where
  rates := rates.insertionSort fun a b => a.interval ≤ b.interval
  bucketKey := bucketKey.toList
  weight := weight
  sorted := by
    have : Std.Total fun a b : Rate => a.interval ≤ b.interval := ⟨fun a b => by omega⟩
    have : IsTrans Rate fun a b => a.interval ≤ b.interval := ⟨fun a b c hab hbc => by omega⟩
    exact rates.pairwise_insertionSort _

/-- A request that a limiter is asked about: the clock of the application with the random part
of the member, and the clock of Redis when the script is run. -/
structure Call where
  limiter : RedisRateLimiter
  rateKey : Text
  routeIndex : Nat
  depIndex : Nat
  now : Nat
  uuid : Text
  clock : Nat

namespace Call

/-- Who asks where. -/
def asks (c : Call) : Text × Text × Nat × Nat :=
  (c.limiter.bucketKey, c.rateKey, c.routeIndex, c.depIndex)

def key (c : Call) : Text :=
  c.limiter.bucketKey ++ ':' :: (c.rateKey ++ ':' :: (Nat.toDigits 10 c.routeIndex ++
    ':' :: Nat.toDigits 10 c.depIndex))

def member (c : Call) : Text := Nat.toDigits 10 c.now ++ ':' :: c.uuid

end Call

/-- `rates[-1].interval` -/
def RedisRateLimiter.maxInterval (l : RedisRateLimiter) : Option Nat :=
  l.rates.getLast?.map Rate.interval

abbrev Redis := Text → SortedSet

/-- `RedisRateLimiter._try_acquire`, none where it raises. -/
def tryAcquire (c : Call) (redis : Redis) : Option (Bool × Redis) :=
  c.limiter.maxInterval.map fun maxInterval =>
    let result := redisRateLimitScript c.clock c.now c.member c.limiter.weight maxInterval
      c.limiter.rates (redis c.key)
    (result.1, Function.update redis c.key result.2)

def second : Nat := 1000

def minute : Nat := 60 * second

def hour : Nat := 60 * minute

def createRateLimiter (rate : Rate) (bucketKey : String) : RedisRateLimiter :=
  .init [rate] bucketKey 1

/-- The limiters that the routers of the application make. -/
def limiters : List RedisRateLimiter :=
  [createRateLimiter ⟨1200, minute⟩ "rate-limit:api:minute",
    createRateLimiter ⟨200, second⟩ "rate-limit:api:second",
    createRateLimiter ⟨10, minute⟩ "rate-limit:v1:replay",
    createRateLimiter ⟨10, minute⟩ "rate-limit:v2:score-download",
    createRateLimiter ⟨3, minute * 5⟩ "rate-limit:v2:session-verify",
    createRateLimiter ⟨3, minute * 5⟩ "rate-limit:v2:reissue-verification-code",
    createRateLimiter ⟨3, minute * 5⟩ "rate-limit:v2:mail-fallback",
    createRateLimiter ⟨50, hour⟩ "rate-limit:private:beatmapset-sync",
    createRateLimiter ⟨3, minute * 5⟩ "rate-limit:private:password-change",
    createRateLimiter ⟨30, minute⟩ "rate-limit:private:audio:minute",
    createRateLimiter ⟨5, second * 10⟩ "rate-limit:private:audio:burst"]

end Soms.Limits

/-!
## What the limiters let through

A bucket forgets what is too old, and Redis may drop it altogether.  As long as the calls reach
Redis in the order of their moments, each of them is answered as from a log of everything that
was let through before.
-/

namespace Soms.Limits

open SlidingLog

/-! ## Keys -/

theorem colon_not_mem_digits (n : Nat) : ':' ∉ Nat.toDigits 10 n := by
  intro h
  exact absurd (Nat.isDigit_of_mem_toDigits (by omega) (by omega) h) (by decide)

theorem digits_inj {m n : Nat} (h : Nat.toDigits 10 m = Nat.toDigits 10 n) : m = n := by
  have hdigits := congrArg (fun l => Nat.ofDigitChars 10 l 0) h
  simpa only [Nat.ofDigitChars_ten_toDigits] using hdigits

/-- What is in front of the first colon of a text is read in one way. -/
theorem append_colon_inj {a b x y : Text} (ha : ':' ∉ a) (hb : ':' ∉ b)
    (h : a ++ ':' :: x = b ++ ':' :: y) : a = b ∧ x = y := by
  induction a generalizing b with
  | nil =>
    cases b with
    | nil => exact ⟨rfl, (List.cons.inj h).2⟩
    | cons c b =>
      have hc : ':' = c := (List.cons.inj h).1
      exact absurd (hc ▸ List.mem_cons_self) hb
  | cons c a ih =>
    cases b with
    | nil =>
      have hc : c = ':' := (List.cons.inj h).1
      exact absurd (hc ▸ List.mem_cons_self) ha
    | cons d b =>
      have hrest := ih (fun hm => ha (List.mem_cons_of_mem c hm))
        (fun hm => hb (List.mem_cons_of_mem d hm)) (List.cons.inj h).2
      rw [(List.cons.inj h).1, hrest.1]
      exact ⟨rfl, hrest.2⟩

/-- The digits behind the last colon of a text are read in one way. -/
theorem append_digits_inj {a b : Text} {m n : Nat}
    (h : a ++ ':' :: Nat.toDigits 10 m = b ++ ':' :: Nat.toDigits 10 n) : a = b ∧ m = n := by
  have hrev := congrArg List.reverse h
  simp only [List.reverse_append, List.reverse_cons, List.append_assoc, List.cons_append,
    List.nil_append] at hrev
  have hparts := append_colon_inj (by simpa using colon_not_mem_digits m)
    (by simpa using colon_not_mem_digits n) hrev
  exact ⟨List.reverse_inj.mp hparts.2, digits_inj (List.reverse_inj.mp hparts.1)⟩

theorem numbered_inj {a b : Text} {i j : Nat} (h : numbered a i = numbered b j) : a = b ∧ i = j :=
  append_digits_inj h

theorem member_inj {c d : Call} (h : c.member = d.member) : c.uuid = d.uuid :=
  (append_colon_inj (colon_not_mem_digits _) (colon_not_mem_digits _) h).2

/-- The keys of two limiters cannot be mixed up. -/
def Separate (ls : List RedisRateLimiter) : Prop :=
  ∀ l ∈ ls, ∀ l' ∈ ls, l.bucketKey ++ [':'] <+: l'.bucketKey ++ [':'] → l = l'

theorem asks_eq_of_key_eq {ls : List RedisRateLimiter} (hls : Separate ls) {c d : Call}
    (hc : c.limiter ∈ ls) (hd : d.limiter ∈ ls) (h : c.key = d.key) :
    c.limiter = d.limiter ∧ c.asks = d.asks := by
  have hassoc : ∀ c : Call, c.key = ((c.limiter.bucketKey ++ ':' :: c.rateKey) ++
      ':' :: Nat.toDigits 10 c.routeIndex) ++ ':' :: Nat.toDigits 10 c.depIndex := by
    intro c
    simp only [Call.key, List.append_assoc, List.cons_append]
  rw [hassoc, hassoc] at h
  have hdep := append_digits_inj h
  have hroute := append_digits_inj hdep.1
  have hrate : (c.limiter.bucketKey ++ [':']) ++ c.rateKey =
      (d.limiter.bucketKey ++ [':']) ++ d.rateKey := by
    simpa only [List.append_assoc, List.cons_append, List.nil_append] using hroute.1
  have hlimiter : c.limiter = d.limiter := by
    have hpre : c.limiter.bucketKey ++ [':'] <+: (d.limiter.bucketKey ++ [':']) ++ d.rateKey :=
      hrate ▸ List.prefix_append _ _
    cases List.prefix_or_prefix_of_prefix hpre (List.prefix_append _ _) with
    | inl hcd => exact hls _ hc _ hd hcd
    | inr hdc => exact (hls _ hd _ hc hdc).symm
  rw [hlimiter] at hrate
  refine ⟨hlimiter, ?_⟩
  simp only [Call.asks, hlimiter, List.append_cancel_left hrate, hroute.2, hdep.2]

theorem key_eq_of_asks_eq {c d : Call} (h : c.asks = d.asks) : c.key = d.key := by
  simp only [Call.asks, Prod.mk.injEq] at h
  simp only [Call.key, h.1, h.2.1, h.2.2.1, h.2.2.2]

/-! ## Counting -/

namespace SortedSet

variable {s : SortedSet} {lo hi : Int}

theorem zcount_zadd {score : Int} {member : Text} (hfresh : ∀ e ∈ s.members, e.1 ≠ member) :
    (s.zadd score member).zcount lo hi =
      (if lo ≤ score ∧ score ≤ hi then 1 else 0) + s.zcount lo hi := by
  have hall : s.members.filter (fun e => e.1 ≠ member) = s.members :=
    List.filter_eq_self.mpr fun e he => decide_eq_true (hfresh e he)
  simp only [zcount, zadd, hall, List.countP_append, List.countP_singleton, decide_eq_true_eq]
  omega

theorem members_zadd {score : Int} {member : Text} {e : Text × Int}
    (he : e ∈ (s.zadd score member).members) : e ∈ s.members ∨ e = (member, score) := by
  simp only [zadd, List.mem_append, List.mem_singleton] at he
  exact he.imp_left List.mem_of_mem_filter

theorem zremrangebyscore_members {lo hi : Int} :
    (s.zremrangebyscore lo hi).members = s.members.filter fun e => ¬(lo ≤ e.2 ∧ e.2 ≤ hi) := by
  unfold zremrangebyscore
  dsimp only
  split
  · next h => exact (List.isEmpty_iff.mp h).symm
  · rfl

theorem zremrangebyscore_expiresAt {lo hi : Int} {t : Nat}
    (h : (s.zremrangebyscore lo hi).expiresAt = some t) : s.expiresAt = some t := by
  unfold zremrangebyscore at h
  dsimp only at h
  split at h
  · cases h
  · exact h

/-- What was removed is not asked for. -/
theorem zcount_zremrangebyscore {floor : Int} (hlo : floor < lo) :
    (s.zremrangebyscore 0 floor).zcount lo hi = s.zcount lo hi := by
  rw [zcount, zremrangebyscore_members, List.countP_filter]
  apply List.countP_congr
  intro e _
  simp only [decide_not, Bool.and_eq_true, decide_eq_true_eq, Bool.not_eq_true',
    decide_eq_false_iff_not]
  omega

theorem zcount_pexpire {clock milliseconds : Nat} :
    (s.pexpire clock milliseconds).zcount lo hi = s.zcount lo hi := by
  unfold pexpire
  split <;> rfl

theorem members_pexpire {clock milliseconds : Nat} :
    (s.pexpire clock milliseconds).members = s.members := by
  unfold pexpire
  split <;> rfl

end SortedSet

theorem addMembers_succ (now : Int) (member : Text) (weight : Nat) (s : SortedSet) :
    addMembers now member (weight + 1) s =
      (addMembers now member weight s).zadd now (numbered member (weight + 1)) := by
  simp only [addMembers, List.range_succ, List.foldl_append, List.foldl_cons, List.foldl_nil]

theorem members_addMembers {now : Int} {member : Text} {weight : Nat} {s : SortedSet}
    {e : Text × Int} (he : e ∈ (addMembers now member weight s).members) :
    e ∈ s.members ∨ ∃ i < weight, e = (numbered member (i + 1), now) := by
  induction weight with
  | zero => exact Or.inl he
  | succ weight ih =>
    rw [addMembers_succ] at he
    cases SortedSet.members_zadd he with
    | inl hbefore =>
      cases ih hbefore with
      | inl hold => exact Or.inl hold
      | inr hadded =>
        obtain ⟨i, hi, heq⟩ := hadded
        exact Or.inr ⟨i, by omega, heq⟩
    | inr heq => exact Or.inr ⟨weight, by omega, heq⟩

/-- New members of one score each count for one. -/
theorem zcount_addMembers (now : Int) {member : Text} {s : SortedSet}
    (hfresh : ∀ e ∈ s.members, ∀ i, e.1 ≠ numbered member i) (weight : Nat) (lo hi : Int) :
    (addMembers now member weight s).zcount lo hi =
      (if lo ≤ now ∧ now ≤ hi then weight else 0) + s.zcount lo hi := by
  induction weight with
  | zero => simp [addMembers]
  | succ weight ih =>
    have hnew : ∀ e ∈ (addMembers now member weight s).members,
        e.1 ≠ numbered member (weight + 1) := by
      intro e he heq
      cases members_addMembers he with
      | inl hold => exact hfresh e hold _ heq
      | inr hadded =>
        obtain ⟨i, hi, rfl⟩ := hadded
        have hsame := (numbered_inj heq).2
        omega
    rw [addMembers_succ, SortedSet.zcount_zadd hnew, ih]
    split <;> omega

/-! ## One bucket -/

/-- A call comes after an earlier one, has a random part of its own, and the clock of the
application has fallen behind that of Redis by ten seconds at most in between. -/
structure Follows (later earlier : Call) : Prop where
  now_le : earlier.now ≤ later.now
  drift : earlier.now + later.clock ≤ later.now + earlier.clock + 10000
  uuid_ne : later.uuid ≠ earlier.uuid

/-- Where the window of a rate begins.  What is as old as the largest window is removed before
it is counted. -/
def windowStart (maxInterval : Nat) (rate : Rate) (now : Int) : Int :=
  max (now - rate.interval) (now - maxInterval + 1)

/-- The bucket of some calls that let the entries of the log through. -/
structure Kept (maxInterval : Nat) (past : List Call) (log : List (Int × ℕ)) (s : SortedSet) :
    Prop where
  members : ∀ e ∈ s.members, ∃ c ∈ past, ∃ i, e = (numbered c.member i, (c.now : Int))
  kept : ∀ n : Int, (∀ c ∈ past, (c.now : Int) ≤ n) →
    KeptAfter (n - maxInterval) (fun lo hi => s.zcount lo hi) log
  logged : ∀ e ∈ log, ∃ c ∈ past, e.1 = c.now
  expires : ∀ t, s.expiresAt = some t → ∃ c ∈ past, t = c.clock + maxInterval + 10000 ∧
    ∀ e ∈ log, e.1 ≤ c.now

namespace Kept

variable {m : Nat} {past : List Call} {log : List (Int × ℕ)} {s : SortedSet} {c : Call}

theorem missing : Kept m [] [] .missing where
  members := fun e he => absurd he List.not_mem_nil
  kept := fun _ _ _ _ _ => rfl
  logged := fun e he => absurd he List.not_mem_nil
  expires := fun t ht => by cases ht

/-- A call that leaves the bucket alone. -/
theorem later (h : Kept m past log s) (c : Call) : Kept m (c :: past) log s where
  members := by
    intro e he
    obtain ⟨d, hd, hrest⟩ := h.members e he
    exact ⟨d, List.mem_cons_of_mem c hd, hrest⟩
  kept := fun n hn => h.kept n fun d hd => hn d (List.mem_cons_of_mem c hd)
  logged := by
    intro e he
    obtain ⟨d, hd, hrest⟩ := h.logged e he
    exact ⟨d, List.mem_cons_of_mem c hd, hrest⟩
  expires := by
    intro t ht
    obtain ⟨d, hd, hrest⟩ := h.expires t ht
    exact ⟨d, List.mem_cons_of_mem c hd, hrest⟩

/-- A bucket that has expired held nothing that still counts. -/
theorem live (h : Kept m past log s) (hfollows : ∀ d ∈ past, Follows c d) :
    Kept m (c :: past) log (s.live c.clock) := by
  unfold SortedSet.live
  by_cases hexpired : s.expiresAt.any (· ≤ c.clock) = true
  · obtain ⟨t, ht, hle⟩ := Option.any_eq_true _ _ |>.mp hexpired
    obtain ⟨d, hd, rfl, hlog⟩ := h.expires t ht
    have hdrift := (hfollows d hd).drift
    have hle' : d.clock + m + 10000 ≤ c.clock := of_decide_eq_true hle
    rw [if_pos hexpired]
    exact {
      members := fun e he => absurd he List.not_mem_nil
      kept := by
        intro n hn
        apply KeptAfter.forget
        intro e he
        have hnow := hn c List.mem_cons_self
        have hold := hlog e he
        omega
      logged := (h.later c).logged
      expires := fun t ht => by cases ht }
  · rw [if_neg hexpired]
    exact h.later c

/-- What is removed for its age is not asked for any more. -/
theorem prune (h : Kept m (c :: past) log s) :
    Kept m (c :: past) log (s.zremrangebyscore 0 (c.now - m)) where
  members := by
    intro e he
    rw [SortedSet.zremrangebyscore_members] at he
    exact h.members e (List.mem_of_mem_filter he)
  kept := by
    intro n hn lo hi hlo
    have hnow := hn c List.mem_cons_self
    show (s.zremrangebyscore 0 (c.now - m)).zcount lo hi = _
    rw [SortedSet.zcount_zremrangebyscore (by omega)]
    exact h.kept n hn lo hi hlo
  logged := h.logged
  expires := fun t ht => h.expires t (SortedSet.zremrangebyscore_expiresAt ht)

theorem young (h : Kept m (c :: past) log s) :
    ∀ e ∈ (s.zremrangebyscore 0 (c.now - m)).members, (c.now : Int) - m < e.2 := by
  intro e he
  rw [SortedSet.zremrangebyscore_members] at he
  have hkeep := of_decide_eq_true (List.mem_filter.mp he).2
  obtain ⟨d, _, i, rfl⟩ := h.members e (List.mem_of_mem_filter he)
  dsimp only at hkeep ⊢
  omega

theorem add {w : Nat} (hw : 0 < w) (h : Kept m (c :: past) log s)
    (hfresh : ∀ e ∈ s.members, ∀ i, e.1 ≠ numbered c.member i)
    (hlast : ∀ d ∈ past, d.now ≤ c.now) :
    Kept m (c :: past) (((c.now : Int), w) :: log)
      ((addMembers c.now c.member w s).pexpire c.clock (m + 10000)) := by
  have hadd : ∀ lo hi : Int, _ := zcount_addMembers (c.now : Int) hfresh w
  exact {
    members := by
      intro e he
      rw [SortedSet.members_pexpire] at he
      cases members_addMembers he with
      | inl hold => exact h.members e hold
      | inr hnew =>
        obtain ⟨i, _, rfl⟩ := hnew
        exact ⟨c, List.mem_cons_self, i + 1, rfl⟩
    kept := by
      intro n hn
      apply (h.kept n hn).add
      intro lo hi
      rw [SortedSet.zcount_pexpire, hadd]
    logged := by
      intro e he
      cases List.mem_cons.mp he with
      | inl heq => exact ⟨c, List.mem_cons_self, heq ▸ rfl⟩
      | inr hold => exact h.logged e hold
    expires := by
      intro t ht
      have hsome : (addMembers c.now c.member w s).members ≠ [] := by
        intro hnil
        have hcount := hadd c.now c.now
        rw [SortedSet.zcount, hnil, List.countP_nil, if_pos ⟨le_refl _, le_refl _⟩] at hcount
        omega
      rw [SortedSet.pexpire, if_neg (by simpa using hsome)] at ht
      refine ⟨c, List.mem_cons_self, by have := Option.some.inj ht; omega, ?_⟩
      intro e he
      cases List.mem_cons.mp he with
      | inl heq => exact heq ▸ le_refl _
      | inr hold =>
        obtain ⟨d, hd, heq⟩ := h.logged e hold
        rw [heq]
        cases List.mem_cons.mp hd with
        | inl hdc => exact hdc ▸ le_refl _
        | inr hd => exact Int.ofNat_le.mpr (hlast d hd) }

/-- The script answers as from the log and keeps the bucket up to it. -/
theorem script {w : Nat} (hw : 0 < w) (h : Kept m past log s) (hfollows : ∀ d ∈ past, Follows c d)
    (rates : List Rate) :
    ((redisRateLimitScript c.clock c.now c.member w m rates s).1 = true ↔
        ∀ rate ∈ rates, load log (windowStart m rate c.now) c.now + w ≤ rate.limit) ∧
      Kept m (c :: past)
        (if (redisRateLimitScript c.clock c.now c.member w m rates s).1
          then ((c.now : Int), w) :: log else log)
        (redisRateLimitScript c.clock c.now c.member w m rates s).2 := by
  have hlive := h.live hfollows
  have hpruned := hlive.prune
  have hyoung := hlive.young
  generalize hbucket : (s.live c.clock).zremrangebyscore 0 (c.now - m) = bucket at hpruned hyoung
  have hlatest : ∀ d ∈ c :: past, (d.now : Int) ≤ c.now := by
    intro d hd
    cases List.mem_cons.mp hd with
    | inl hdc => exact hdc ▸ le_refl _
    | inr hd => exact Int.ofNat_le.mpr (hfollows d hd).now_le
  have hcount : ∀ rate : Rate, bucket.zcount (c.now - rate.interval) c.now =
      load log (windowStart m rate c.now) c.now := by
    intro rate
    have hload := hpruned.kept c.now hlatest (windowStart m rate c.now) c.now
      (by unfold windowStart; omega)
    rw [← hload]
    apply List.countP_congr
    intro e he
    have hafter := hyoung e he
    simp only [windowStart, max_le_iff, decide_eq_true_eq]
    omega
  have hroom : hasRoom c.now w rates bucket = true ↔
      ∀ rate ∈ rates, load log (windowStart m rate c.now) c.now + w ≤ rate.limit := by
    simp only [hasRoom, List.all_eq_true, hcount, Bool.not_eq_true', decide_eq_false_iff_not,
      not_lt]
  have hfresh : ∀ e ∈ bucket.members, ∀ i, e.1 ≠ numbered c.member i := by
    intro e he i heq
    rw [← hbucket, SortedSet.zremrangebyscore_members] at he
    have hin := List.mem_of_mem_filter he
    unfold SortedSet.live at hin
    split at hin
    · exact absurd hin List.not_mem_nil
    · obtain ⟨d, hd, j, rfl⟩ := h.members e hin
      exact (hfollows d hd).uuid_ne (member_inj (numbered_inj heq).1).symm
  unfold redisRateLimitScript
  dsimp only
  rw [hbucket]
  by_cases hfits : hasRoom c.now w rates bucket = true
  · rw [if_pos hfits]
    exact ⟨⟨fun _ => hroom.mp hfits, fun _ => rfl⟩,
      hpruned.add hw hfresh fun d hd => (hfollows d hd).now_le⟩
  · rw [if_neg hfits]
    exact ⟨⟨fun hfalse => (by cases hfalse), fun hall => absurd (hroom.mpr hall) hfits⟩, hpruned⟩

end Kept

/-! ## Runs -/

def Step (redis : Redis) (e : Call × Bool) (after : Redis) : Prop :=
  tryAcquire e.1 redis = some (e.2, after)

/-- The runs of some limiters from an empty Redis. -/
abbrev Runs (ls : List RedisRateLimiter) : List ((Call × Bool) × Redis) → Redis → Prop :=
  Trace Step (fun _ e => e.1.limiter ∈ ls) fun _ => .missing

/-- Who asked where, the newest first. -/
def asked (a : Text × Text × Nat × Nat) (h : List ((Call × Bool) × Redis)) : List Call :=
  (h.map fun x => x.1.1).filter fun c => c.asks = a

/-- What was let through, with its moment and its weight. -/
def accepted (a : Text × Text × Nat × Nat) (h : List ((Call × Bool) × Redis)) : List (Int × ℕ) :=
  ((h.filter fun x => x.1.2).map fun x => x.1.1).filter (fun c => c.asks = a) |>.map
    fun c => ((c.now : Int), c.limiter.weight)

/-- The calls of one who asks reach Redis in the order of their moments. -/
def InOrder (h : List ((Call × Bool) × Redis)) : Prop :=
  h.Pairwise fun later earlier =>
    later.1.1.asks = earlier.1.1.asks → Follows later.1.1 earlier.1.1

variable {ls : List RedisRateLimiter} {h : List ((Call × Bool) × Redis)} {redis : Redis}
  {c : Call} {reply : Bool}

theorem accepted_cons_of_asks :
    accepted c.asks (((c, reply), redis) :: h) =
      if reply then ((c.now : Int), c.limiter.weight) :: accepted c.asks h
      else accepted c.asks h := by
  cases reply <;> simp [accepted]

theorem accepted_cons_of_ne {a : Text × Text × Nat × Nat} (hne : c.asks ≠ a) :
    accepted a (((c, reply), redis) :: h) = accepted a h := by
  cases reply <;> simp [accepted, hne]

/-- What a call does. -/
theorem Step.script {s t : Redis} (hstep : Step s (c, reply) t) :
    ∃ m, c.limiter.maxInterval = some m ∧
      (redisRateLimitScript c.clock c.now c.member c.limiter.weight m c.limiter.rates
        (s c.key)).1 = reply ∧
      t = Function.update s c.key (redisRateLimitScript c.clock c.now c.member c.limiter.weight m
        c.limiter.rates (s c.key)).2 := by
  obtain ⟨m, hm, heq⟩ := Option.map_eq_some_iff.mp hstep
  exact ⟨m, hm, (Prod.mk.inj heq).1, (Prod.mk.inj heq).2.symm⟩

theorem InOrder.follows (hord : InOrder (((c, reply), redis) :: h)) :
    ∀ earlier ∈ asked c.asks h, Follows c earlier := by
  intro earlier hmem
  obtain ⟨hin, hsame⟩ := List.mem_filter.mp hmem
  obtain ⟨x, hx, rfl⟩ := List.mem_map.mp hin
  exact (List.pairwise_cons.mp hord).1 x hx (of_decide_eq_true hsame).symm

/-- Every bucket is kept along a run. -/
theorem Runs.kept (hls : Separate ls) (hweight : ∀ l ∈ ls, 0 < l.weight) (hrun : Runs ls h redis)
    (hord : InOrder h) :
    ∀ c : Call, c.limiter ∈ ls → ∀ m ∈ c.limiter.maxInterval,
      Kept m (asked c.asks h) (accepted c.asks h) (redis c.key) := by
  induction hrun with
  | refl => exact fun c _ m _ => Kept.missing
  | @tail h s t e _ hd hlast ih =>
    have hbefore := (List.pairwise_cons.mp hord).2
    intro c hc m hm
    obtain ⟨d, reply⟩ := e
    obtain ⟨m', hm', rfl, rfl⟩ := hlast.script
    by_cases hkey : c.key = d.key
    · obtain ⟨hlimiter, hasks⟩ := asks_eq_of_key_eq hls hc hd hkey
      obtain rfl : m' = m := Option.some.inj (hm'.symm.trans (hlimiter ▸ hm))
      have hscript := ((ih hbefore d hd m' hm').script (hweight _ hd) hord.follows
        d.limiter.rates).2
      rw [hkey, hasks, Function.update_self, accepted_cons_of_asks, asked, List.map_cons,
        List.filter_cons_of_pos (by simp)]
      exact hscript
    · have hne : d.asks ≠ c.asks := fun heq => hkey (key_eq_of_asks_eq heq).symm
      rw [Function.update_of_ne hkey, accepted_cons_of_ne hne, asked, List.map_cons,
        List.filter_cons_of_neg (by simpa using hne)]
      exact ih hbefore c hc m hm

/-- One more call is answered as from the log. -/
theorem Runs.answers (hls : Separate ls) (hweight : ∀ l ∈ ls, 0 < l.weight)
    (hrun : Runs ls h redis) {t : Redis} (hord : InOrder (((c, reply), t) :: h))
    (hc : c.limiter ∈ ls) (hstep : Step redis (c, reply) t) :
    ∀ m ∈ c.limiter.maxInterval, (reply = true ↔ ∀ rate ∈ c.limiter.rates,
      load (accepted c.asks h) (windowStart m rate c.now) c.now + c.limiter.weight ≤
        rate.limit) := by
  intro m hm
  obtain ⟨m', hm', rfl, rfl⟩ := hstep.script
  obtain rfl : m' = m := Option.some.inj (hm'.symm.trans hm)
  exact ((hrun.kept hls hweight (List.pairwise_cons.mp hord).2 c hc m' hm').script (hweight _ hc)
    hord.follows c.limiter.rates).1

/-- As long as the calls come in the order of their moments, a call is let through if and only
if every window that ends at its moment has room left by the calls that were let through. -/
theorem replies_from_log (hls : Separate ls) (hweight : ∀ l ∈ ls, 0 < l.weight)
    (hrun : Runs ls h redis) (hord : InOrder h) :
    Every (fun past e _ => ∀ m ∈ e.1.limiter.maxInterval,
      (e.2 = true ↔ ∀ rate ∈ e.1.limiter.rates,
        load (accepted e.1.asks past) (windowStart m rate e.1.now) e.1.now +
          e.1.limiter.weight ≤ rate.limit)) h := by
  induction hrun with
  | refl => trivial
  | tail hpast hc hlast ih =>
    exact ⟨ih (List.pairwise_cons.mp hord).2, Runs.answers hls hweight hpast hord hc hlast⟩

theorem Runs.admitted (hls : Separate ls) (hweight : ∀ l ∈ ls, 0 < l.weight)
    (hrun : Runs ls h redis) (hord : InOrder h) {l : RedisRateLimiter} (hl : l ∈ ls) {m : Nat}
    (hm : l.maxInterval = some m) {rate : Rate} (hrate : rate ∈ l.rates)
    (a : Text × Text × Nat × Nat) (ha : a.1 = l.bucketKey) :
    Admitted (windowStart m rate) rate.limit (accepted a h) := by
  induction hrun with
  | refl => exact .nil
  | @tail h s t e hpast hd hlast ih =>
    obtain ⟨d, reply⟩ := e
    have hadmitted := ih (List.pairwise_cons.mp hord).2
    by_cases hne : d.asks ≠ a
    · rw [accepted_cons_of_ne hne]
      exact hadmitted
    · obtain rfl : d.asks = a := not_not.mp hne
      have hlimiter : d.limiter = l := hls _ hd _ hl (by rw [← ha, Call.asks])
      have hanswers := Runs.answers hls hweight hpast hord hd hlast m (hlimiter ▸ hm)
      rw [accepted_cons_of_asks]
      split
      · next hyes =>
        refine .cons hadmitted ?_ (hanswers.mp hyes rate (hlimiter ▸ hrate))
        intro e he
        obtain ⟨c, hin, rfl⟩ := List.mem_map.mp he
        obtain ⟨hin, hasks⟩ := List.mem_filter.mp hin
        obtain ⟨x, hx, rfl⟩ := List.mem_map.mp hin
        exact Int.ofNat_le.mpr ((List.pairwise_cons.mp hord).1 x (List.mem_of_mem_filter hx)
          (of_decide_eq_true hasks).symm).now_le
      · exact hadmitted

theorem RedisRateLimiter.le_maxInterval {l : RedisRateLimiter} {m : Nat}
    (hm : l.maxInterval = some m) {rate : Rate} (hrate : rate ∈ l.rates) : rate.interval ≤ m := by
  obtain ⟨last, hlast, rfl⟩ := Option.map_eq_some_iff.mp hm
  obtain ⟨init, hinit⟩ := List.getLast?_eq_some_iff.mp hlast
  have hsorted := l.sorted
  rw [hinit] at hrate hsorted
  cases List.mem_append.mp hrate with
  | inl hin => exact (List.pairwise_append.mp hsorted).2.2 rate hin last List.mem_cons_self
  | inr heq => exact (List.mem_singleton.mp heq) ▸ le_refl _

/-- No window that is shorter than the interval of a rate holds more than the limit of the
rate, and neither does one of just that length unless the interval is the largest. -/
theorem windows_bounded (hls : Separate ls) (hweight : ∀ l ∈ ls, 0 < l.weight)
    (hrun : Runs ls h redis) (hord : InOrder h) {l : RedisRateLimiter} (hl : l ∈ ls) {rate : Rate}
    (hrate : rate ∈ l.rates) (rateKey : Text) (routeIndex depIndex : Nat) (lo hi : Int)
    (hlength : hi - lo < rate.interval ∨
      hi - lo = rate.interval ∧ ∃ r ∈ l.rates, rate.interval < r.interval) :
    load (accepted (l.bucketKey, rateKey, routeIndex, depIndex) h) lo hi ≤ rate.limit := by
  cases hm : l.maxInterval with
  | none =>
    have hnil : l.rates = [] := by
      simpa only [RedisRateLimiter.maxInterval, Option.map_eq_none_iff,
        List.getLast?_eq_none_iff] using hm
    exact absurd (hnil ▸ hrate) List.not_mem_nil
  | some m =>
    have hmax := l.le_maxInterval hm hrate
    have hshort : hi - lo < m := by
      cases hlength with
      | inl hlt => omega
      | inr hlarger =>
        obtain ⟨heq, r, hr, hlt⟩ := hlarger
        have hle := l.le_maxInterval hm hr
        omega
    apply (Runs.admitted hls hweight hrun hord hl hm hrate
      (l.bucketKey, rateKey, routeIndex, depIndex) rfl).load_le_limit
    intro t hlo hhi
    rw [windowStart, max_le_iff]
    constructor <;> omega

/-! ## The limiters of the application -/

theorem limiters_separate : Separate limiters := by
  have hkeys : ∀ l ∈ limiters, ∀ l' ∈ limiters,
      l.bucketKey ++ [':'] <+: l'.bucketKey ++ [':'] → l.bucketKey = l'.bucketKey := by decide
  have hnodup : (limiters.map (·.bucketKey)).Nodup := by decide
  intro l hl l' hl' hpre
  exact List.inj_on_of_nodup_map hnodup hl hl' (hkeys l hl l' hl' hpre)

/-- What a call leaves, also where it raises. -/
def after (redis : Redis) (c : Call) : Redis := ((tryAcquire c redis).map Prod.snd).getD redis

theorem step_after (hreply : (tryAcquire c redis).map Prod.fst = some reply) :
    Step redis (c, reply) (after redis c) := by
  obtain ⟨result, hresult, rfl⟩ := Option.map_eq_some_iff.mp hreply
  rw [Step, after, hresult]
  rfl

instance (later earlier : Call) : Decidable (Follows later earlier) :=
  decidable_of_iff (earlier.now ≤ later.now ∧
      earlier.now + later.clock ≤ later.now + earlier.clock + 10000 ∧ later.uuid ≠ earlier.uuid)
    ⟨fun h => ⟨h.1, h.2.1, h.2.2⟩, fun h => ⟨h.now_le, h.drift, h.uuid_ne⟩⟩

instance : Decidable (InOrder h) := inferInstanceAs (Decidable (List.Pairwise _ h))

/-- A request for a verification mail. -/
def verification (now : Nat) (uuid : Text) : Call where
  limiter := createRateLimiter ⟨3, minute * 5⟩ "rate-limit:v2:session-verify"
  rateKey := "198.51.100.7:/session/verify".toList
  routeIndex := 4
  depIndex := 0
  now := now
  uuid := uuid
  clock := now

/-- The states of a run of requests, the newest first. -/
def verifications : List ((Call × Bool) × Redis) :=
  let s₁ := after (fun _ => .missing) (verification 1000 ['a'])
  let s₂ := after s₁ (verification 2000 ['b'])
  let s₃ := after s₂ (verification 3000 ['c'])
  [((verification 4000 ['d'], false), after s₃ (verification 4000 ['d'])),
    ((verification 3000 ['c'], true), s₃), ((verification 2000 ['b'], true), s₂),
    ((verification 1000 ['a'], true), s₁)]

theorem mem_limiters (now : Nat) (uuid : Text) : (verification now uuid).limiter ∈ limiters := by
  simp [limiters, verification]

theorem Runs.verify (hrun : Runs limiters h redis) (now : Nat) (uuid : Text) (reply : Bool)
    (hreply : (tryAcquire (verification now uuid) redis).map Prod.fst = some reply) :
    Runs limiters (((verification now uuid, reply), after redis (verification now uuid)) :: h)
      (after redis (verification now uuid)) :=
  hrun.tail (mem_limiters now uuid) (step_after hreply)

theorem runs_verifications :
    Runs limiters verifications (endState (fun _ => .missing) verifications) := by
  have hstart : Runs limiters [] fun _ => .missing := .refl
  have h₁ := hstart.verify 1000 ['a'] true (by decide)
  have h₂ := h₁.verify 2000 ['b'] true (by decide)
  have h₃ := h₂.verify 3000 ['c'] true (by decide)
  exact h₃.verify 4000 ['d'] false (by decide)

/-- The fourth mail within five minutes is refused. -/
theorem replies_from_log_verifications :
    verifications.map (fun x => x.1.2) = [false, true, true, true] ∧
      Every (fun past e _ => ∀ m ∈ e.1.limiter.maxInterval,
        (e.2 = true ↔ ∀ rate ∈ e.1.limiter.rates,
          load (accepted e.1.asks past) (windowStart m rate e.1.now) e.1.now +
            e.1.limiter.weight ≤ rate.limit)) verifications :=
  ⟨rfl, replies_from_log limiters_separate (by decide) runs_verifications (by decide)⟩

theorem windows_bounded_verifications :
    accepted (verification 0 []).asks verifications = [(3000, 1), (2000, 1), (1000, 1)] ∧
      load (accepted (verification 0 []).asks verifications) 1000 300999 ≤ 3 :=
  ⟨by decide, windows_bounded limiters_separate (by decide) runs_verifications (by decide)
    (mem_limiters 0 [])
    (show (⟨3, minute * 5⟩ : Rate) ∈ (verification 0 []).limiter.rates from List.mem_cons_self)
    _ 4 0 1000 300999 (by decide)⟩

end Soms.Limits
