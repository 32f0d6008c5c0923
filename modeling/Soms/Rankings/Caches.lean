import Soms.Rankings.Ranking

/-!
# The ranking caches

What a cache holds was answered to the request that wrote it last.  It is the answer to every
request under the same key that does not differ in what the key leaves out: the sort of team
and country rankings, and of user rankings whether an empty country was given, the country of
the requesting user where a country filters, and the day where the change of ranks is shown.
-/

namespace Soms.Rankings

open Soms.Scores (UserId GameMode)

/-- The task that wrote what a key holds, `none` when nothing was written since it expired. -/
def writer {κ : Type} [DecidableEq κ] (writes : State → Event → Option (κ × Task))
    (expires : Event → Option κ) (k : κ) : List (Event × State) → Option Task
  | [] => none
  | (e, _) :: past =>
    match writes (endState State.empty past) e with
    | some (k', task) => if k' = k then some task else writer writes expires k past
    | none => if expires e = some k then none else writer writes expires k past

/-- The write of an event to the pages. -/
def writesPage (upper : String → String) (s : State) : Event → Option (PageKey × Task)
  | .cacheRanking i => (s.tasks i).map fun task => (task.request.pageKey upper, task)
  | _ => none

/-- The write of an event to the totals. -/
def writesTotal (upper : String → String) (s : State) : Event → Option (StatsKey × Task)
  | .cacheStats i => (s.tasks i).bind fun task => (task.stats upper).map fun x => (x.1, task)
  | _ => none

def expiresPage : Event → Option PageKey
  | .expireRanking k => some k
  | _ => none

def expiresTotal : Event → Option StatsKey
  | .expireStats k => some k
  | _ => none

/-- The request whose answer holds the page of `k`. -/
def pageWriter (upper : String → String) (k : PageKey) (past : List (Event × State)) :
    Option Request :=
  (writer (writesPage upper) expiresPage k past).map Task.request

/-- The request whose answer holds the total of `k`. -/
def totalWriter (upper : String → String) (k : StatsKey) (past : List (Event × State)) :
    Option Request :=
  (writer (writesTotal upper) expiresTotal k past).map Task.request

/-- Two requests under one page key do not differ in what the key leaves out. -/
def Request.Alike (db : Db) : Request → Request → Prop
  | .users today _ sort country _ currentUser, .users today' _ _ country' _ currentUser' =>
    (country = none ↔ country' = none) ∧ (sort = .performance → today = today') ∧
      (filtered country = true → db.userCountry currentUser = db.userCountry currentUser')
  | .teams _ sort _, .teams _ sort' _ => sort = sort'
  | .countries _ sort _, .countries _ sort' _ => sort = sort'
  | _, _ => True

/-- Two requests under one key of totals do not differ in what the key leaves out. -/
def Request.SameFilter : Request → Request → Prop
  | .users _ _ _ country _ _, .users _ _ _ country' _ _ => country = none ↔ country' = none
  | _, _ => True

/-- A request gets the answer from the database. -/
def Transparent (upper : String → String) (db : Db) (past : List (Event × State)) (e : Event)
    (_ : State) : Prop :=
  match e with
  | .request _ r => (endState State.empty past).respond upper db r = db.answer upper r
  | _ => True

/-- A request that is answered from the caches does not differ from the ones that wrote them in
what the keys leave out. -/
def FromAlike (upper : String → String) (db : Db) (past : List (Event × State)) (e : Event)
    (_ : State) : Prop :=
  match e with
  | .request _ r => ((endState State.empty past).cached upper r).isSome = true →
      (∀ r', pageWriter upper (r.pageKey upper) past = some r' → r'.Alike db r) ∧
        ∀ k r', r.statsKey upper = some k → totalWriter upper k past = some r' → r'.SameFilter r
  | _ => True

variable {upper : String → String} {db : Db} {s : State} {h : List (Event × State)}

/-! ## Requests under one key -/

/-- Filters under one key that agree on being given select the same. -/
theorem publicRanking_congr {country country' : Option String} (mode : GameMode)
    (hpart : countryPart upper country = countryPart upper country')
    (hnone : country = none ↔ country' = none) :
    db.publicRanking upper mode country = db.publicRanking upper mode country' := by
  cases country with
  | none =>
    obtain rfl := hnone.mp rfl
    rfl
  | some c =>
    cases country' with
    | none => exact absurd (hnone.mpr rfl) (by simp)
    | some c' =>
      by_cases hc : c = "" <;> by_cases hc' : c' = ""
      · rw [hc, hc']
      · simp [countryPart, filtered, hc, hc'] at hpart
      · simp [countryPart, filtered, hc, hc'] at hpart
      · have hupper : upper c = upper c' := by simpa [countryPart, filtered, hc, hc'] using hpart
        simp only [Db.publicRanking, Option.all_some, hupper]

theorem filtered_congr {country country' : Option String}
    (hpart : countryPart upper country = countryPart upper country') :
    filtered country = filtered country' := by
  have hsome : ∀ c : Option String, filtered c = (countryPart upper c).isSome := by
    intro c
    unfold countryPart
    cases c with
    | none => rfl
    | some c => by_cases hc : c = "" <;> simp [filtered, hc]
  rw [hsome, hsome, hpart]

theorem answer_ranking {r r' : Request} (hkey : r'.pageKey upper = r.pageKey upper)
    (halike : r'.Alike db r) : (db.answer upper r').ranking = (db.answer upper r).ranking := by
  cases r' with
  | users today' ruleset' sort' country' page' currentUser' =>
    cases r with
    | users today ruleset sort country page currentUser =>
      obtain ⟨rfl, rfl, hpart, rfl⟩ := PageKey.users.inj hkey
      obtain ⟨hnone, htoday, hcountry⟩ := halike
      simp only [Db.answer, Db.userRanking]
      rw [publicRanking_congr ruleset' hpart hnone]
      refine congrArg Page.users (List.map_congr_left fun stat _ => ?_)
      have hchange : (if sort' = .performance then
          some (db.rankChangeSince30Days upper today' stat) else none) =
            if sort' = .performance then some (db.rankChangeSince30Days upper today stat)
            else none := by
        split
        · next hsort => rw [htoday hsort]
        · rfl
      have hrank : (if filtered country' = true then
          some (db.getRank upper stat (db.userCountry currentUser')) else none) =
            if filtered country = true then
              some (db.getRank upper stat (db.userCountry currentUser)) else none := by
        rw [← filtered_congr hpart]
        split
        · next hfiltered => rw [hcountry hfiltered]
        · rfl
      simp only [Db.userRow, hchange, hrank]
    | teams _ _ _ => simp [Request.pageKey] at hkey
    | countries _ _ _ => simp [Request.pageKey] at hkey
  | teams ruleset' sort' page' =>
    cases r with
    | users _ _ _ _ _ _ => simp [Request.pageKey] at hkey
    | teams ruleset sort page =>
      obtain ⟨rfl, rfl⟩ := PageKey.teams.inj hkey
      obtain rfl : sort' = sort := halike
      rfl
    | countries _ _ _ => simp [Request.pageKey] at hkey
  | countries ruleset' sort' page' =>
    cases r with
    | users _ _ _ _ _ _ => simp [Request.pageKey] at hkey
    | teams _ _ _ => simp [Request.pageKey] at hkey
    | countries ruleset sort page =>
      obtain ⟨rfl, rfl⟩ := PageKey.countries.inj hkey
      obtain rfl : sort' = sort := halike
      rfl

theorem answer_total {r r' : Request} {k : StatsKey} (hkey' : r'.statsKey upper = some k)
    (hkey : r.statsKey upper = some k) (hsame : r'.SameFilter r) :
    (db.answer upper r').total = (db.answer upper r).total := by
  rw [← hkey] at hkey'
  cases r' with
  | users today' ruleset' sort' country' page' currentUser' =>
    cases r with
    | users today ruleset sort country page currentUser =>
      obtain ⟨rfl, -, hpart⟩ := StatsKey.users.inj (Option.some.inj hkey')
      simp only [Db.answer, Db.userRanking]
      rw [publicRanking_congr ruleset' hpart hsame]
    | teams _ _ _ => simp [Request.statsKey] at hkey'
    | countries _ _ _ => simp [Request.statsKey] at hkey'
  | teams ruleset' sort' page' =>
    cases r with
    | users _ _ _ _ _ _ => simp [Request.statsKey] at hkey'
    | teams ruleset sort page =>
      obtain rfl := StatsKey.teams.inj (Option.some.inj hkey')
      rfl
    | countries _ _ _ => simp [Request.statsKey] at hkey'
  | countries _ _ _ =>
    rw [hkey] at hkey'
    simp [Request.statsKey] at hkey'

/-! ## What the caches hold -/

/-- What is written under a key, and by whom, follows from the event. -/
structure Held {κ β : Type} [DecidableEq κ] (upper : String → String) (db : Db)
    (content : State → κ → Option β) (writes : State → Event → Option (κ × Task))
    (expires : Event → Option κ) (value : Task → Option β) : Prop where
  start : ∀ k, content State.empty k = none
  written : ∀ s e k' task, writes s e = some (k', task) → ∀ k,
    content (s.after upper db e) k = if k' = k then value task else content s k
  kept : ∀ s e, writes s e = none → ∀ k,
    content (s.after upper db e) k = if expires e = some k then none else content s k

/-- A key holds what its last writer had. -/
theorem Held.content_eq {κ β : Type} [DecidableEq κ] {content : State → κ → Option β}
    {writes : State → Event → Option (κ × Task)} {expires : Event → Option κ}
    {value : Task → Option β} (hheld : Held upper db content writes expires value)
    (hrun : Trace (Step upper db) (fun _ _ => True) State.empty h s) (k : κ) :
    content s k = (writer writes expires k h).bind value := by
  induction hrun with
  | refl => exact hheld.start k
  | @tail past s t e hpast _ hlast ih =>
    cases hlast
    rw [writer, hpast.endState_eq]
    cases hwrites : writes s e with
    | none =>
      rw [hheld.kept s e hwrites k]
      split <;> simp_all
    | some x =>
      obtain ⟨k', task⟩ := x
      rw [hheld.written s e k' task hwrites k]
      split <;> simp_all

/-- What holds of every write holds of the last writer. -/
theorem writer_of {κ : Type} [DecidableEq κ] {writes : State → Event → Option (κ × Task)}
    {expires : Event → Option κ} {I : State → Prop} {Q : κ → Task → Prop}
    (hrun : Trace (Step upper db) (fun _ _ => True) State.empty h s) (hstart : I State.empty)
    (hstep : ∀ s e, I s → I (s.after upper db e))
    (hwrites : ∀ s e k task, I s → writes s e = some (k, task) → Q k task) {k : κ} {task : Task}
    (h' : writer writes expires k h = some task) : Q k task := by
  suffices hboth : I s ∧ ∀ task, writer writes expires k h = some task → Q k task from
    hboth.2 task h'
  clear h'
  induction hrun with
  | refl => exact ⟨hstart, by simp [writer]⟩
  | @tail past s t e hpast _ hlast ih =>
    cases hlast
    refine ⟨hstep s e ih.1, fun task htask => ?_⟩
    rw [writer, hpast.endState_eq] at htask
    split at htask
    · next k' task' hw =>
      split at htask
      · next hk =>
        subst hk
        obtain rfl := Option.some.inj htask
        exact hwrites s e k' task' ih.1 hw
      · exact ih.2 task htask
    · split at htask
      · simp at htask
      · exact ih.2 task htask

/-- Tasks hold the answers from the database. -/
def Answered (upper : String → String) (db : Db) (s : State) : Prop :=
  ∀ i task, s.tasks i = some task → task.response = db.answer upper task.request

theorem answered_empty : Answered upper db State.empty := by simp [Answered, State.empty]

theorem Answered.after (hs : Answered upper db s) (e : Event) :
    Answered upper db (s.after upper db e) := by
  cases e with
  | request i r =>
    simp only [State.after]
    split
    · exact hs
    · intro j task htask
      simp only [Function.update_apply] at htask
      split at htask
      · obtain rfl := Option.some.inj htask
        rfl
      · exact hs j task htask
  | cacheRanking i =>
    simp only [State.after]
    split
    · exact hs
    · exact hs
  | cacheStats i =>
    simp only [State.after]
    split
    · exact hs
    · exact hs
  | expireRanking k => exact hs
  | expireStats k => exact hs

theorem held_pages (upper : String → String) (db : Db) :
    Held upper db State.pages (writesPage upper) expiresPage fun task => some task.response.ranking where
  start k := rfl
  written s e k' task hw k := by
    cases e with
    | cacheRanking i =>
      obtain ⟨task', htask, heq⟩ := Option.map_eq_some_iff.mp hw
      obtain ⟨rfl, rfl⟩ := Prod.mk.inj heq
      simp [State.after, htask, Function.update_apply, eq_comm]
    | _ => simp [writesPage] at hw
  kept s e hw k := by
    cases e with
    | request i r =>
      simp only [State.after, expiresPage]
      split <;> simp
    | cacheRanking i =>
      have hnone : s.tasks i = none := by simpa [writesPage] using hw
      simp [State.after, hnone, expiresPage]
    | cacheStats i =>
      simp only [State.after, expiresPage]
      split <;> simp
    | expireRanking k' => simp [State.after, expiresPage, Function.update_apply, eq_comm]
    | expireStats k' => simp [State.after, expiresPage]

theorem held_totals (upper : String → String) (db : Db) :
    Held upper db State.totals (writesTotal upper) expiresTotal fun task => task.response.total where
  start k := rfl
  written s e k' task hw k := by
    cases e with
    | cacheStats i =>
      obtain ⟨task', htask, heq⟩ := Option.bind_eq_some_iff.mp hw
      obtain ⟨⟨k'', total⟩, hstats, heq⟩ := Option.map_eq_some_iff.mp heq
      obtain ⟨rfl, rfl⟩ := Prod.mk.inj heq
      have htotal : task'.response.total = some total := by
        simp only [Task.stats, Option.bind_eq_some_iff, Option.map_eq_some_iff] at hstats
        obtain ⟨_, -, n, hn, heq⟩ := hstats
        rw [hn, (Prod.mk.inj heq).2]
      simp [State.after, htask, hstats, htotal, Function.update_apply, eq_comm]
    | _ => simp [writesTotal] at hw
  kept s e hw k := by
    cases e with
    | request i r =>
      simp only [State.after, expiresTotal]
      split <;> simp
    | cacheRanking i =>
      simp only [State.after, expiresTotal]
      split <;> simp
    | cacheStats i =>
      have hnone : (s.tasks i).bind (Task.stats upper) = none := by
        cases htask : s.tasks i with
        | none => rfl
        | some task => simpa [writesTotal, htask] using hw
      simp [State.after, hnone, expiresTotal]
    | expireRanking k' => simp [State.after, expiresTotal]
    | expireStats k' => simp [State.after, expiresTotal, Function.update_apply, eq_comm]

/-! ## Answers from the caches -/

theorem cached_ranking (hrun : Trace (Step upper db) (fun _ _ => True) State.empty h s)
    {k : PageKey} {page : Page} (hpage : s.pages k = some page) :
    ∃ r, pageWriter upper k h = some r ∧ r.pageKey upper = k ∧
      page = (db.answer upper r).ranking := by
  rw [(held_pages upper db).content_eq hrun k] at hpage
  obtain ⟨task, htask, heq⟩ := Option.bind_eq_some_iff.mp hpage
  have hwriter : task.response = db.answer upper task.request ∧ task.request.pageKey upper = k := by
    refine writer_of (Q := fun k task => task.response = db.answer upper task.request ∧
      task.request.pageKey upper = k) hrun answered_empty (fun s e hs => hs.after e)
      (fun s e k task hs hw => ?_) htask
    cases e with
    | cacheRanking i =>
      obtain ⟨task', htask', heq'⟩ := Option.map_eq_some_iff.mp hw
      obtain ⟨rfl, rfl⟩ := Prod.mk.inj heq'
      exact ⟨hs i task' htask', rfl⟩
    | _ => simp [writesPage] at hw
  refine ⟨task.request, by simp [pageWriter, htask], hwriter.2, ?_⟩
  rw [← hwriter.1]
  exact (Option.some.inj heq).symm

theorem cached_total (hrun : Trace (Step upper db) (fun _ _ => True) State.empty h s)
    {k : StatsKey} {total : Nat} (htotal : s.totals k = some total) :
    ∃ r, totalWriter upper k h = some r ∧ r.statsKey upper = some k ∧
      some total = (db.answer upper r).total := by
  rw [(held_totals upper db).content_eq hrun k] at htotal
  obtain ⟨task, htask, heq⟩ := Option.bind_eq_some_iff.mp htotal
  have hwriter : task.response = db.answer upper task.request ∧
      task.request.statsKey upper = some k := by
    refine writer_of (Q := fun k task => task.response = db.answer upper task.request ∧
      task.request.statsKey upper = some k) hrun answered_empty (fun s e hs => hs.after e)
      (fun s e k task hs hw => ?_) htask
    cases e with
    | cacheStats i =>
      obtain ⟨task', htask', heq'⟩ := Option.bind_eq_some_iff.mp hw
      obtain ⟨⟨k', n⟩, hstats, heq'⟩ := Option.map_eq_some_iff.mp heq'
      obtain ⟨rfl, rfl⟩ := Prod.mk.inj heq'
      obtain ⟨k'', hkey, hn⟩ := Option.bind_eq_some_iff.mp hstats
      obtain ⟨_, -, heq'⟩ := Option.map_eq_some_iff.mp hn
      obtain ⟨rfl, -⟩ := Prod.mk.inj heq'
      exact ⟨hs i task' htask', hkey⟩
    | _ => simp [writesTotal] at hw
  refine ⟨task.request, by simp [totalWriter, htask], hwriter.2, ?_⟩
  rw [← hwriter.1]
  exact heq.symm

/-- An answer from caches that requests alike have written. -/
theorem cached_eq_answer (hrun : Trace (Step upper db) (fun _ _ => True) State.empty h s)
    {r : Request} {response : Response} (hcached : s.cached upper r = some response)
    (hpage : ∀ r', pageWriter upper (r.pageKey upper) h = some r' → r'.Alike db r)
    (htotal : ∀ k r', r.statsKey upper = some k → totalWriter upper k h = some r' →
      r'.SameFilter r) : response = db.answer upper r := by
  unfold State.cached at hcached
  split at hcached
  · simp at hcached
  · next ranking hfilter =>
    obtain ⟨hheld, -⟩ := Option.filter_eq_some_iff.mp hfilter
    obtain ⟨r', hwriter, hkey, hranking⟩ := cached_ranking hrun hheld
    rw [answer_ranking hkey (hpage r' hwriter)] at hranking
    have hboth : ∀ a : Response, response.ranking = a.ranking → response.total = a.total →
        response = a := by
      intro a h₁ h₂
      cases response
      cases a
      simp_all
    split at hcached
    · next hnone =>
      obtain rfl := Option.some.inj hcached
      refine hboth _ hranking ?_
      cases r with
      | countries _ _ _ => rfl
      | users _ _ _ _ _ _ => simp [Request.statsKey] at hnone
      | teams _ _ _ => simp [Request.statsKey] at hnone
    · next k hk =>
      obtain ⟨total, hheldTotal, rfl⟩ := Option.map_eq_some_iff.mp hcached
      obtain ⟨r'', hwriter', hkey', hvalue⟩ := cached_total hrun hheldTotal
      refine hboth _ hranking (hvalue.trans ?_)
      exact answer_total hkey' hk (htotal k r'' hk hwriter')

/-- Every request gets the answer from the database as long as those answered from the caches do
not differ from the requests that wrote them in what the keys leave out. -/
theorem ranking_caches_transparent
    (hrun : Trace (Step upper db) (fun _ _ => True) State.empty h s)
    (halike : Every (FromAlike upper db) h) : Every (Transparent upper db) h := by
  induction hrun with
  | refl => trivial
  | @tail past s t e hpast _ hlast ih =>
    refine ⟨ih halike.1, ?_⟩
    cases e with
    | request i r =>
      show (endState State.empty past).respond upper db r = _
      have hfrom := halike.2
      simp only [FromAlike] at hfrom
      rw [hpast.endState_eq] at hfrom ⊢
      unfold State.respond
      cases hcached : s.cached upper r with
      | none => rfl
      | some response =>
        obtain ⟨hpage, htotal⟩ := hfrom (by rw [hcached]; rfl)
        exact cached_eq_answer hpast hcached hpage htotal
    | _ => trivial

/-- The history of some events, the newest first. -/
def rankingRun (upper : String → String) (db : Db) (es : List Event) : List (Event × State) :=
  historyOf (State.after upper db) State.empty es

theorem trace_rankingRun (upper : String → String) (db : Db) (es : List Event) :
    Trace (Step upper db) (fun _ _ => True) State.empty (rankingRun upper db es)
      (endState State.empty (rankingRun upper db es)) :=
  trace_historyOf State.empty es fun e _ s => .mk s e

/-- Two players, each the leader of a team: one has more pp and the other more score. -/
def twoTeams : Db where
  users := [{ id := 1, countryCode := "SE" }, { id := 2, countryCode := "SE" }]
  statistics := [{ userId := 1, mode := .osu, pp := 100, rankedScore := 10 },
    { userId := 2, mode := .osu, pp := 50, rankedScore := 20 }]
  bestScores := []
  rankHistory := []
  teams := [⟨1, "First", "A", 1⟩, ⟨2, "Second", "B", 2⟩]
  members := [⟨1, 1⟩, ⟨2, 2⟩]

/-- The players of all countries, asked for by a user. -/
def players (uid : UserId) : Request := .users 7 .osu .performance none 1 (some uid)

/-- A request whose answer is cached. -/
def askedOnce : List Event := [.cacheStats 1, .cacheRanking 1, .request 1 (players 1)]

theorem ranking_caches_transparent_again :
    Every (Transparent String.toUpper twoTeams)
        (rankingRun String.toUpper twoTeams (.request 2 (players 2) :: askedOnce)) ∧
      ((endState State.empty (rankingRun String.toUpper twoTeams askedOnce)).cached String.toUpper
        (players 2)).isSome = true := by
  have hpage : pageWriter String.toUpper ((players 2).pageKey String.toUpper)
      (rankingRun String.toUpper twoTeams askedOnce) = some (players 1) := by decide +kernel
  have htotal : ∀ k, (players 2).statsKey String.toUpper = some k →
      totalWriter String.toUpper k (rankingRun String.toUpper twoTeams askedOnce) =
        some (players 1) := by
    intro k hk
    obtain rfl := Option.some.inj hk
    decide +kernel
  have hfirst : ∀ t, FromAlike String.toUpper twoTeams [] (.request 1 (players 1)) t :=
    fun _ hcached => absurd hcached (by decide +kernel)
  have hagain : ∀ t, FromAlike String.toUpper twoTeams (rankingRun String.toUpper twoTeams askedOnce)
      (.request 2 (players 2)) t := by
    intro _ _
    constructor
    · intro r' hr'
      have hsame : players 1 = r' := Option.some.inj (hpage.symm.trans hr')
      subst hsame
      exact ⟨Iff.rfl, fun _ => rfl, fun h => absurd h (by decide)⟩
    · intro k r' hk hr'
      have hsame : players 1 = r' := Option.some.inj ((htotal k hk).symm.trans hr')
      subst hsame
      exact Iff.rfl
  refine ⟨ranking_caches_transparent (trace_rankingRun String.toUpper twoTeams _) ?_,
    by decide +kernel⟩
  have honce : Every (FromAlike String.toUpper twoTeams)
      (rankingRun String.toUpper twoTeams askedOnce) := ⟨⟨⟨trivial, hfirst _⟩, trivial⟩, trivial⟩
  exact ⟨honce, hagain _⟩

/-- The teams by pp and then by score. -/
def otherSort : List Event :=
  [.request 2 (.teams .osu .score 1), .cacheStats 1, .cacheRanking 1,
    .request 1 (.teams .osu .performance 1)]

theorem other_sort_cached : ∃ upper db h s, Trace (Step upper db) (fun _ _ => True) State.empty h s ∧
    ¬ Every (Transparent upper db) h := by
  refine ⟨String.toUpper, twoTeams, _, _, trace_rankingRun String.toUpper twoTeams otherSort,
    fun hevery => ?_⟩
  have hsame := hevery.2
  revert hsame
  show ¬ (_ = _)
  decide +kernel

end Soms.Rankings
