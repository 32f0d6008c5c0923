import Soms.Rankings.Refresh
import Mathlib.Data.List.ReduceOption

/-!
# What a full refresh leaves in the caches

All tasks of a refresh share the one `_refreshing` flag, and a task that finds it set returns at
once.  A task that runs writes the pages of its list from the first on and ends where the list
does, and the pages after that stay as they were.
-/

namespace Soms.Rankings.Refresh

open Soms.Scores (UserId GameMode)

variable {R : Type}

/-- The cached pages of one list. -/
abbrev Pages (R : Type) := Nat → Option (Cached R)

/-! ## A refreshed list -/

section Law

variable (config : Config R) (during : Tables → Prop)

/-- Each item was made from its row at one of the moments. -/
def Rendered {α β : Type} (render : Tables → α → β) (rows : List α) (items : List β) : Prop :=
  List.Forall₂ (fun row item => ∃ t, during t ∧ item = render t row) rows items

/-- The statistics of the countries, those without statistics left out. -/
def Assembled (ruleset : GameMode) (codes : List String) (countries : List CountryStatistics) :
    Prop :=
  ∃ parts, Rendered during (fun t code => t.countryStatistics ruleset code) codes parts ∧
    countries = parts.reduceOption

/-- A country ranking, read country by country. -/
def CountryRanking (ruleset : GameMode) (countries : List CountryStatistics) : Prop :=
  ∃ t all, during t ∧ Assembled during ruleset t.codes all ∧
    countries = sortedBy CountryStatistics.performance all

/-- A page of top scores begins at the cursor, the first page at the top. -/
def Begins (ruleset : GameMode) (number : Nat) (start : Option ℚ) : Prop :=
  number = 1 ∧ start = none ∨
    ∃ t pp, during t ∧ t.cursor ruleset number = some pp ∧ start = some pp

/-- The page holds rows that the list had there. -/
def Holds (number : Nat) : RankingList → Cached R → Prop
  | .users ruleset type country, .users rows =>
    ∃ t, during t ∧ pageOf (t.ranking config.upper ruleset type country) number ≠ [] ∧
      Rendered during (fun t stat => t.userRow config.upper type country stat)
        (pageOf (t.ranking config.upper ruleset type country) number) rows
  | .countries ruleset, .countries rows =>
    ∃ countries, CountryRanking during ruleset countries ∧ pageOf countries number ≠ [] ∧
      rows = pageOf countries number
  | .topScores ruleset, .topScores rows =>
    ∃ start t, Begins during ruleset number start ∧ during t ∧
      Rendered during config.toResp (t.scoresFrom ruleset start) rows
  | _, _ => False

/-- The list had no such page. -/
def Missing (number : Nat) : RankingList → Prop
  | .users ruleset type country =>
    ∃ t, during t ∧ pageOf (t.ranking config.upper ruleset type country) number = []
  | .countries ruleset =>
    ∃ countries, CountryRanking during ruleset countries ∧ pageOf countries number = []
  | .topScores ruleset =>
    number ≠ 1 ∧ ∃ t, during t ∧ t.cursor ruleset number = none

/-- The number of pages that are kept of a list. -/
def Config.limit : RankingList → Nat
  | .users _ _ _ | .countries _ => config.maxPages
  | .topScores _ => config.maxTopPages

/-- The pages before one hold rows of the list. -/
def Written (l : RankingList) (pages : Pages R) (stop : Nat) : Prop :=
  ∀ number, 1 ≤ number → number < stop →
    ∃ page, pages number = some page ∧ Holds config during number l page

/-- The pages hold rows of the list, up to one that the list did not have or that is not kept,
and from there on none is cached. -/
def Refreshed (l : RankingList) (pages : Pages R) : Prop :=
  ∃ stop, 1 ≤ stop ∧ Written config during l pages stop ∧
    (∀ number, stop ≤ number → pages number = none) ∧
    (config.limit l < stop ∨ Missing config during stop l)

end Law

variable {config : Config R} {during : Tables → Prop} {t : Tables} {l : RankingList}
  {pages : Pages R}

theorem Rendered.snoc {α β : Type} {render : Tables → α → β} {rows : List α} {items : List β}
    (h : Rendered during render rows items) (ht : during t) (row : α) :
    Rendered during render (rows ++ [row]) (items ++ [render t row]) :=
  List.rel_append h (.cons ⟨t, ht, rfl⟩ .nil)

theorem Assembled.snoc {ruleset : GameMode} {codes : List String}
    {countries : List CountryStatistics} (h : Assembled during ruleset codes countries)
    (ht : during t) (code : String) :
    Assembled during ruleset (codes ++ [code])
      (countries ++ (t.countryStatistics ruleset code).toList) := by
  obtain ⟨parts, hparts, rfl⟩ := h
  refine ⟨_, hparts.snoc ht code, ?_⟩
  rw [List.reduceOption_append]
  cases t.countryStatistics ruleset code <;> rfl

theorem Assembled.nil {ruleset : GameMode} : Assembled during ruleset [] [] := ⟨[], .nil, rfl⟩

/-- The pages after a write. -/
def cache (pages : Pages R) : Option (Write R) → Pages R
  | some (.page number page) => Function.update pages number (some page)
  | _ => pages

theorem Written.first : Written config during l pages 1 := fun _ h₁ h₂ => by omega

theorem Written.next {number : Nat} {page : Cached R} (h : Written config during l pages number)
    (hpage : Holds config during number l page) :
    Written config during l (Function.update pages number (some page)) (number + 1) := by
  intro k hk hlt
  rcases Nat.lt_succ_iff_lt_or_eq.mp hlt with hlt | rfl
  · rw [Function.update_of_ne (Nat.ne_of_lt hlt)]
    exact h k hk hlt
  · exact ⟨page, Function.update_self .., hpage⟩

/-- The pages written so far are the last that are kept. -/
theorem Written.refreshed {number : Nat} {page : Cached R}
    (h : Written config during l pages number) (hone : 1 ≤ number)
    (hpage : Holds config during number l page) (hlimit : config.limit l ≤ number)
    (hclean : ∀ k, number + 1 ≤ k → pages k = none) :
    Refreshed config during l (Function.update pages number (some page)) := by
  refine ⟨number + 1, by omega, h.next hpage, fun k hk => ?_, .inl (by omega)⟩
  rw [Function.update_of_ne (by omega)]
  exact hclean k hk

/-! ## A turn of a task -/

section Turn

variable (config : Config R) (during : Tables → Prop)

/-- A turn leads to a phase that is right for the pages, or leaves the list refreshed if no page
from `stop` on was cached. -/
def Keeps {P : Type} (Right : Pages R → P → Prop) (l : RankingList) (pages : Pages R) (stop : Nat)
    (turn : Turn P R) : Prop :=
  match turn.1 with
  | some next => Right (cache pages turn.2) next
  | none => (∀ number, stop ≤ number → pages number = none) →
      Refreshed config during l (cache pages turn.2)

/-- The page at which the list ends, should this turn be the last. -/
def UserPhase.stop : UserPhase → Nat
  | .count | .stats _ => 1
  | .page number => number
  | .rows number _ _ => number + 1

def CountryPhase.stop : CountryPhase → Nat
  | .codes | .country _ _ | .stats _ => 1
  | .page number countries => if pageOf countries number = [] then number else number + 1

def TopPhase.stop : TopPhase R → Nat
  | .cursor number => number
  | .scores number _ | .rows number _ _ => number + 1

/-- What the task has written, and where the rows that it holds are from. -/
def UserPhase.Right (ruleset : GameMode) (type : SortType) (country : Option String)
    (pages : Pages R) : UserPhase → Prop
  | .count | .stats _ => True
  | .page number => 1 ≤ number ∧ Written config during (.users ruleset type country) pages number
  | .rows number todo done =>
    1 ≤ number ∧ Written config during (.users ruleset type country) pages number ∧
      ∃ t before, during t ∧ pageOf (t.ranking config.upper ruleset type country) number ≠ [] ∧
        pageOf (t.ranking config.upper ruleset type country) number = before ++ todo ∧
        Rendered during (fun t stat => t.userRow config.upper type country stat) before done

def CountryPhase.Right (ruleset : GameMode) (pages : Pages R) : CountryPhase → Prop
  | .codes => True
  | .country todo done =>
    ∃ t before, during t ∧ t.codes = before ++ todo ∧ Assembled during ruleset before done
  | .stats countries => CountryRanking during ruleset countries
  | .page number countries =>
    1 ≤ number ∧ Written config during (.countries ruleset) pages number ∧
      CountryRanking during ruleset countries

def TopPhase.Right (ruleset : GameMode) (pages : Pages R) : TopPhase R → Prop
  | .cursor number => 1 ≤ number ∧ Written config during (.topScores ruleset) pages number
  | .scores number start =>
    1 ≤ number ∧ Written config during (.topScores ruleset) pages number ∧
      Begins during ruleset number start
  | .rows number todo done =>
    1 ≤ number ∧ Written config during (.topScores ruleset) pages number ∧
      ∃ start t before, Begins during ruleset number start ∧ during t ∧
        t.scoresFrom ruleset start = before ++ todo ∧
        Rendered during config.toResp before done

end Turn

theorem UserPhase.Right.turn {ruleset : GameMode} {type : SortType} {country : Option String}
    {phase : UserPhase} (h : phase.Right config during ruleset type country pages)
    (ht : during t) :
    Keeps config during (UserPhase.Right config during ruleset type country)
      (.users ruleset type country) pages phase.stop
      (phase.turn config t ruleset type country) := by
  cases phase with
  | count => trivial
  | stats total =>
    show Keeps _ _ _ _ _ _ (if _ then _ else _, _)
    split
    · exact ⟨le_refl 1, .first⟩
    · next hmax => exact fun hclean => ⟨1, le_refl 1, .first, hclean, .inl (by
        show config.maxPages < 1
        omega)⟩
  | page number =>
    obtain ⟨hone, hwritten⟩ := h
    show Keeps _ _ _ _ _ _ (if _ then _ else _, _)
    split
    · next hempty => exact fun hclean => ⟨number, hone, hwritten, hclean, .inr ⟨t, ht, hempty⟩⟩
    · next hrows => exact ⟨hone, hwritten, t, [], ht, hrows, rfl, .nil⟩
  | rows number todo done =>
    obtain ⟨hone, hwritten, t', before, ht', hrows, hsplit, hdone⟩ := h
    cases todo with
    | cons stat todo =>
      exact ⟨hone, hwritten, t', before ++ [stat], ht', hrows, by rw [hsplit, List.append_cons],
        hdone.snoc ht stat⟩
    | nil =>
      rw [List.append_nil] at hsplit
      have hpage : Holds config during number (.users ruleset type country) (.users done) :=
        ⟨t', ht', hrows, by rw [hsplit]; exact hdone⟩
      show Keeps _ _ _ _ _ _ (if _ then _ else _, _)
      split
      · exact ⟨by omega, hwritten.next hpage⟩
      · next hmax => exact hwritten.refreshed hone hpage (Nat.not_lt.mp hmax)

theorem CountryPhase.Right.turn {ruleset : GameMode} {phase : CountryPhase}
    (h : phase.Right config during ruleset pages) (ht : during t) :
    Keeps config during (CountryPhase.Right config during ruleset) (.countries ruleset) pages
      phase.stop (phase.turn config t ruleset) := by
  cases phase with
  | codes => exact ⟨t, [], ht, rfl, .nil⟩
  | country todo done =>
    obtain ⟨t', before, ht', hsplit, hdone⟩ := h
    cases todo with
    | cons code todo =>
      exact ⟨t', before ++ [code], ht', by rw [hsplit, List.append_cons], hdone.snoc ht code⟩
    | nil =>
      rw [List.append_nil] at hsplit
      exact ⟨t', done, ht', hsplit ▸ hdone, rfl⟩
  | stats countries =>
    show Keeps _ _ _ _ _ _ (if _ then _ else _, _)
    split
    · exact ⟨le_refl 1, .first, h⟩
    · next hmax => exact fun hclean => ⟨1, le_refl 1, .first, hclean, .inl (by
        show config.maxPages < 1
        omega)⟩
  | page number countries =>
    obtain ⟨hone, hwritten, hcountries⟩ := h
    show Keeps _ _ _ _ _ (if pageOf countries number = [] then number else number + 1)
      (if _ then _ else (if _ then _ else _, _))
    by_cases hempty : pageOf countries number = []
    · rw [if_pos hempty, if_pos hempty]
      exact fun hclean => ⟨number, hone, hwritten, hclean, .inr ⟨countries, hcountries, hempty⟩⟩
    · have hpage : Holds config during number (.countries ruleset)
          (.countries (pageOf countries number)) := ⟨countries, hcountries, hempty, rfl⟩
      rw [if_neg hempty, if_neg hempty]
      split
      · exact ⟨by omega, hwritten.next hpage, hcountries⟩
      · next hmax => exact hwritten.refreshed hone hpage (Nat.not_lt.mp hmax)

theorem TopPhase.Right.turn {ruleset : GameMode} {phase : TopPhase R}
    (h : phase.Right config during ruleset pages) (ht : during t) :
    Keeps config during (TopPhase.Right config during ruleset) (.topScores ruleset) pages
      phase.stop (phase.turn config t ruleset) := by
  cases phase with
  | cursor number =>
    obtain ⟨hone, hwritten⟩ := h
    show Keeps _ _ _ _ _ _ (if _ then _ else if _ then _ else _)
    split
    · next hmax => exact fun hclean => ⟨number, hone, hwritten, hclean, .inl hmax⟩
    · split
      · next heq =>
        subst heq
        exact ⟨hone, hwritten, .inl ⟨rfl, rfl⟩⟩
      · next hne =>
        split
        · next hnone =>
          exact fun hclean => ⟨number, hone, hwritten, hclean, .inr ⟨hne, t, ht, hnone⟩⟩
        · next pp hpp => exact ⟨hone, hwritten, .inr ⟨t, pp, ht, hpp, rfl⟩⟩
  | scores number start =>
    obtain ⟨hone, hwritten, hstart⟩ := h
    exact ⟨hone, hwritten, start, t, [], hstart, ht, rfl, .nil⟩
  | rows number todo done =>
    obtain ⟨hone, hwritten, start, t', before, hstart, ht', hsplit, hdone⟩ := h
    cases todo with
    | cons score todo =>
      exact ⟨hone, hwritten, start, t', before ++ [score], hstart, ht',
        by rw [hsplit, List.append_cons], hdone.snoc ht score⟩
    | nil =>
      rw [List.append_nil] at hsplit
      exact ⟨by omega, hwritten.next ⟨start, t', hstart, ht', hsplit ▸ hdone⟩⟩

/-! ## The call -/

section Call

variable (config : Config R) (during : Tables → Prop)

def Phase.Right (pages : Pages R) : RankingList → Phase R → Prop
  | _, .waiting => True
  | l, .finished => Refreshed config during l pages
  | .users ruleset type country, .users phase =>
    phase.Right config during ruleset type country pages
  | .countries ruleset, .countries phase => phase.Right config during ruleset pages
  | .topScores ruleset, .topScores phase => phase.Right config during ruleset pages
  | _, _ => False

def Phase.stop : Phase R → Nat
  | .users phase => phase.stop
  | .countries phase => phase.stop
  | .topScores phase => phase.stop
  | _ => 1

/-- Every task has been right about its list so far. -/
structure Sound (tasks : List RankingList) (s : State R) : Prop where
  tables : during s.tables
  lists : ∀ l ∈ tasks, (s.phases l).Right config during (s.pages (l.key config.upper)) l

/-- The tables that the database had in the course of a run. -/
def Moments (s₀ : State R) (h : List (State.Event × State R)) (t : Tables) : Prop :=
  t = s₀.tables ∨ ∃ x ∈ h, t = x.2.tables

/-- No task finds a refresh in progress, and when a task ends, no page is cached from the one on
at which its list ends. -/
def Undisturbed (s : State R) : State.Event → Prop
  | .change _ => True
  | .enter _ => s.refreshing = false
  | .run l =>
    ((s.phases l).turn config s.tables l).1.isFinished = true →
      ∀ number, (s.phases l).stop ≤ number → s.pages (l.key config.upper) number = none

end Call

/-- A turn of a task, as a turn of the call. -/
theorem Keeps.phase {P : Type} {Right : Pages R → P → Prop} {stop : Nat} {turn : Turn P R}
    (h : Keeps config during Right l pages stop turn) (lift : P → Phase R)
    (hlift : ∀ pages next, Right pages next → (lift next).Right config during pages l)
    (hclean : ((turn.1.map lift).getD .finished).isFinished = true →
      ∀ number, stop ≤ number → pages number = none) :
    ((turn.1.map lift).getD .finished).Right config during (cache pages turn.2) l := by
  obtain ⟨next, write⟩ := turn
  cases next with
  | some next => exact hlift _ _ h
  | none =>
    have hdone : Refreshed config during l (cache pages write) := h (hclean rfl)
    cases l <;> exact hdone

theorem Phase.Right.turn {phase : Phase R} (h : phase.Right config during pages l)
    (hrunning : phase.running = true) (ht : during t)
    (hclean : (phase.turn config t l).1.isFinished = true →
      ∀ number, phase.stop ≤ number → pages number = none) :
    (phase.turn config t l).1.Right config during (cache pages (phase.turn config t l).2) l := by
  cases l with
  | users ruleset type country =>
    cases phase with
    | users phase => exact (UserPhase.Right.turn h ht).phase .users (fun _ _ h => h) hclean
    | waiting | finished | skipped => simp [running] at hrunning
    | countries _ | topScores _ => exact h.elim
  | countries ruleset =>
    cases phase with
    | countries phase =>
      exact (CountryPhase.Right.turn h ht).phase .countries (fun _ _ h => h) hclean
    | waiting | finished | skipped => simp [running] at hrunning
    | users _ | topScores _ => exact h.elim
  | topScores ruleset =>
    cases phase with
    | topScores phase => exact (TopPhase.Right.turn h ht).phase .topScores (fun _ _ h => h) hclean
    | waiting | finished | skipped => simp [running] at hrunning
    | users _ | countries _ => exact h.elim

theorem Phase.right_first : (Phase.first l : Phase R).Right config during pages l := by
  cases l with
  | users _ _ _ => trivial
  | countries _ => trivial
  | topScores _ => exact ⟨le_refl 1, .first⟩

theorem pages_write (s : State R) (k : ListKey) (write : Option (Write R)) :
    (s.write k write).pages = Function.update s.pages k (cache (s.pages k) write) := by
  rcases write with _ | ⟨number, page⟩ | total
  · exact (Function.update_eq_self k s.pages).symm
  · rfl
  · exact (Function.update_eq_self k s.pages).symm

theorem phases_write (s : State R) (k : ListKey) (write : Option (Write R)) :
    (s.write k write).phases = s.phases := by
  rcases write with _ | ⟨number, page⟩ | total <;> rfl

theorem after_enter {s : State R} (hfree : s.refreshing = false) :
    s.after config (.enter l) =
      { s with refreshing := true, phases := Function.update s.phases l (.first l) } := by
  simp [State.after, hfree]

theorem Sound.after {tasks : List RankingList} {s : State R} {e : State.Event}
    (hs : Sound config during tasks s) (hkeys : (tasks.map (·.key config.upper)).Nodup)
    (hallowed : s.Allowed tasks e) (hquiet : Undisturbed config s e)
    (ht : during (s.after config e).tables) : Sound config during tasks (s.after config e) := by
  refine ⟨ht, fun l' hl' => ?_⟩
  cases e with
  | change tables => exact hs.lists l' hl'
  | enter l =>
    rw [after_enter hquiet]
    show (Function.update s.phases l (.first l) l').Right _ _ _ _
    by_cases heq : l' = l
    · rw [heq, Function.update_self]
      exact Phase.right_first
    · rw [Function.update_of_ne heq]
      exact hs.lists l' hl'
  | run l =>
    obtain ⟨hl, hrunning⟩ := hallowed
    show (Function.update (s.write _ _).phases l _ l').Right config during
      ((s.write _ _).pages _) _
    rw [pages_write, phases_write]
    by_cases heq : l' = l
    · rw [heq, Function.update_self, Function.update_self]
      exact (hs.lists l hl).turn hrunning hs.tables hquiet
    · have hkey : l'.key config.upper ≠ l.key config.upper := fun h =>
        heq (List.inj_on_of_nodup_map hkeys hl' hl h)
      rw [Function.update_of_ne heq, Function.update_of_ne hkey]
      exact hs.lists l' hl'

/-- No page is cached from the one on. -/
def Clear (pages : Pages R) (reached : Nat) : Prop :=
  ∀ number, reached ≤ number → pages number = none

theorem Clear.next {number : Nat} (h : Clear pages number) (page : Option (Cached R)) :
    Clear (Function.update pages number page) (number + 1) := by
  intro k hk
  rw [Function.update_of_ne (by omega)]
  exact h k (by omega)

/-- The next page that the task writes. -/
def UserPhase.reached : UserPhase → Nat
  | .count | .stats _ => 1
  | .page number | .rows number _ _ => number

def CountryPhase.reached : CountryPhase → Nat
  | .codes | .country _ _ | .stats _ => 1
  | .page number _ => number

def TopPhase.reached : TopPhase R → Nat
  | .cursor number | .scores number _ | .rows number _ _ => number

def Phase.reached : Phase R → Nat
  | .users phase => phase.reached
  | .countries phase => phase.reached
  | .topScores phase => phase.reached
  | _ => 1

theorem UserPhase.clear_turn {ruleset : GameMode} {type : SortType} {country : Option String}
    {phase next : UserPhase} (h : Clear pages phase.reached)
    (hnext : (phase.turn config t ruleset type country).1 = some next) :
    Clear (cache pages (phase.turn config t ruleset type country).2) next.reached := by
  cases phase with
  | count =>
    obtain rfl := Option.some.inj hnext
    exact h
  | stats total =>
    obtain ⟨-, hnext⟩ := Option.ite_none_right_eq_some.mp hnext
    obtain rfl := Option.some.inj hnext
    exact h
  | page number =>
    obtain ⟨-, hnext⟩ := Option.ite_none_left_eq_some.mp hnext
    obtain rfl := Option.some.inj hnext
    exact h
  | rows number todo done =>
    cases todo with
    | cons stat todo =>
      obtain rfl := Option.some.inj hnext
      exact h
    | nil =>
      obtain ⟨-, hnext⟩ := Option.ite_none_right_eq_some.mp hnext
      obtain rfl := Option.some.inj hnext
      exact h.next _

theorem CountryPhase.clear_turn {ruleset : GameMode} {phase next : CountryPhase}
    (h : Clear pages phase.reached) (hnext : (phase.turn (R := R) config t ruleset).1 = some next) :
    Clear (cache pages (phase.turn config t ruleset).2) next.reached := by
  cases phase with
  | codes =>
    obtain rfl := Option.some.inj hnext
    exact h
  | country todo done =>
    cases todo with
    | cons code todo | nil =>
      obtain rfl := Option.some.inj hnext
      exact h
  | stats countries =>
    obtain ⟨-, hnext⟩ := Option.ite_none_right_eq_some.mp hnext
    obtain rfl := Option.some.inj hnext
    exact h
  | page number countries =>
    revert hnext
    show (if _ then _ else _ : Turn CountryPhase R).1 = _ →
      Clear (cache pages (if _ then _ else _ : Turn CountryPhase R).2) _
    by_cases hempty : pageOf countries number = []
    · rw [if_pos hempty]
      simp
    · rw [if_neg hempty]
      intro hnext
      obtain ⟨-, hnext⟩ := Option.ite_none_right_eq_some.mp hnext
      obtain rfl := Option.some.inj hnext
      exact h.next _

theorem TopPhase.clear_turn {ruleset : GameMode} {phase next : TopPhase R}
    (h : Clear pages phase.reached) (hnext : (phase.turn config t ruleset).1 = some next) :
    Clear (cache pages (phase.turn config t ruleset).2) next.reached := by
  cases phase with
  | cursor number =>
    revert hnext
    show (if _ then _ else if _ then _ else _ : Turn (TopPhase R) R).1 = _ →
      Clear (cache pages (if _ then _ else if _ then _ else _ : Turn (TopPhase R) R).2) _
    split
    · simp
    · split
      · next heq =>
        intro hnext
        obtain rfl := Option.some.inj hnext
        exact heq ▸ h
      · split
        · simp
        · intro hnext
          obtain rfl := Option.some.inj hnext
          exact h
  | scores number start =>
    obtain rfl := Option.some.inj hnext
    exact h
  | rows number todo done =>
    cases todo with
    | cons score todo =>
      obtain rfl := Option.some.inj hnext
      exact h
    | nil =>
      obtain rfl := Option.some.inj hnext
      exact h.next _

theorem Phase.clear_turn {phase : Phase R} (h : Clear pages phase.reached)
    (hnext : (phase.turn config t l).1.returned = false) :
    Clear (cache pages (phase.turn config t l).2) (phase.turn config t l).1.reached := by
  have hmapped : ∀ {P : Type} (turn : Turn P R) (lift : P → Phase R),
      ((turn.1.map lift).getD .finished).returned = false →
      (∀ next, turn.1 = some next → Clear (cache pages turn.2) (lift next).reached) →
      Clear (cache pages turn.2) ((turn.1.map lift).getD .finished).reached := by
    rintro P ⟨_ | next, write⟩ lift hover hclear
    · simp [returned] at hover
    · exact hclear next rfl
  cases l with
  | users ruleset type country =>
    cases phase with
    | users phase => exact hmapped _ .users hnext fun _ => UserPhase.clear_turn h
    | _ => exact h
  | countries ruleset =>
    cases phase with
    | countries phase => exact hmapped _ .countries hnext fun _ => CountryPhase.clear_turn h
    | _ => exact h
  | topScores ruleset =>
    cases phase with
    | topScores phase => exact hmapped _ .topScores hnext fun _ => TopPhase.clear_turn h
    | _ => exact h

theorem Phase.reached_le_stop (phase : Phase R) : phase.reached ≤ phase.stop := by
  cases phase with
  | users phase => cases phase <;> simp [reached, stop, UserPhase.reached, UserPhase.stop]
  | countries phase =>
    cases phase with
    | page number countries =>
      show number ≤ if pageOf countries number = [] then number else number + 1
      split
      · exact le_refl number
      · exact Nat.le_succ number
    | _ => exact le_refl 1
  | topScores phase => cases phase <;> simp [reached, stop, TopPhase.reached, TopPhase.stop]
  | _ => exact le_refl 1

/-- A task that enters does not find a refresh in progress. -/
def Free (s : State R) : State.Event → Prop
  | .enter _ => s.refreshing = false
  | _ => True

/-- No list has a cached page that its task has not written. -/
def Cold (config : Config R) (tasks : List RankingList) (s : State R) : Prop :=
  ∀ l ∈ tasks, (s.phases l).returned = false →
    Clear (s.pages (l.key config.upper)) (s.phases l).reached

theorem Cold.after {tasks : List RankingList} {s : State R} {e : State.Event}
    (hs : Cold config tasks s) (hkeys : (tasks.map (·.key config.upper)).Nodup)
    (hallowed : s.Allowed tasks e) (hfree : Free s e) : Cold config tasks (s.after config e) := by
  intro l' hl'
  cases e with
  | change tables => exact hs l' hl'
  | enter l =>
    obtain ⟨-, hwaiting, -⟩ := hallowed
    rw [after_enter hfree]
    show (Function.update s.phases l (.first l) l').returned = false →
      Clear (s.pages _) (Function.update s.phases l (.first l) l').reached
    by_cases heq : l' = l
    · subst heq
      have hclear := hs l' hl'
      revert hwaiting hclear
      rw [Function.update_self]
      cases s.phases l' <;> simp [Phase.isWaiting]
      intro hclear _
      cases l' <;> exact hclear rfl
    · rw [Function.update_of_ne heq]
      exact hs l' hl'
  | run l =>
    obtain ⟨hl, hrunning⟩ := hallowed
    show (Function.update (s.write _ _).phases l _ l').returned = false →
      Clear ((s.write _ _).pages _) (Function.update (s.write _ _).phases l _ l').reached
    rw [pages_write, phases_write]
    by_cases heq : l' = l
    · rw [heq, Function.update_self, Function.update_self]
      refine Phase.clear_turn (hs l hl ?_)
      revert hrunning
      cases s.phases l <;> simp [Phase.running, Phase.returned]
    · have hkey : l'.key config.upper ≠ l.key config.upper := fun h =>
        heq (List.inj_on_of_nodup_map hkeys hl' hl h)
      rw [Function.update_of_ne heq, Function.update_of_ne hkey]
      exact hs l' hl'

/-- With a cold cache nothing but a refresh in progress disturbs a task. -/
theorem Cold.undisturbed {tasks : List RankingList} {s₀ s : State R}
    {h : List (State.Event × State R)} (hcold : Cold config tasks s₀)
    (hkeys : (tasks.map (·.key config.upper)).Nodup)
    (hrun : Trace (State.Step config) (fun s e => s.Allowed tasks e ∧ Free s e) s₀ h s) :
    Trace (State.Step config) (fun s e => s.Allowed tasks e ∧ Undisturbed config s e) s₀ h s := by
  have hstep : ∀ s e, Cold config tasks s → s.Allowed tasks e → Free s e →
      Undisturbed config s e := by
    intro s e hs hallowed hfree
    cases e with
    | change tables => trivial
    | enter l => exact hfree
    | run l =>
      intro _ number hstop
      refine hs l hallowed.1 ?_ number ((Phase.reached_le_stop _).trans hstop)
      have hrunning := hallowed.2
      revert hrunning
      cases s.phases l <;> simp [Phase.running, Phase.returned]
  suffices hboth : Trace (State.Step config)
      (fun s e => s.Allowed tasks e ∧ Undisturbed config s e) s₀ h s ∧ Cold config tasks s from
    hboth.1
  induction hrun with
  | refl => exact ⟨.refl, hcold⟩
  | tail _ hP hlast ih =>
    obtain ⟨hpast, hs⟩ := ih
    cases hlast
    exact ⟨hpast.tail ⟨hP.1, hstep _ _ hs hP.1 hP.2⟩ (.mk _ _), hs.after hkeys hP.1 hP.2⟩

/-! ## Two refreshes -/

instance (s : State R) : (e : State.Event) → Decidable (Free s e)
  | .enter _ => inferInstanceAs (Decidable (s.refreshing = false))
  | .change _ | .run _ => .isTrue trivial

instance (tasks : List RankingList) (s : State R) : (e : State.Event) →
    Decidable (s.Allowed tasks e)
  | .change _ => .isTrue trivial
  | .enter _ => inferInstanceAs (Decidable (_ ∧ _ ∧ _))
  | .run _ => inferInstanceAs (Decidable (_ ∧ _))

/-- No user and no score. -/
def noTables : Tables := ⟨⟨[], [], [], [], [], []⟩, [], [], 0⟩

/-- One page is kept of each list. -/
def onePage : Config Unit := ⟨id, fun _ _ => (), 1, 1, 20⟩

/-- A call that begins with some pages in the cache. -/
def begun (pages : ListKey → Pages Unit) : State Unit :=
  ⟨noTables, false, pages, fun _ => none, fun _ => .waiting⟩

/-- A task that runs to its end. -/
def toEnd (l : RankingList) : List State.Event :=
  .enter l :: List.replicate (match l with | .users _ _ _ => 3 | _ => 4) (.run l)

/-- Each task begins when the one before it has ended. -/
def oneByOne : List State.Event := ((refreshTasks []).flatMap toEnd).reverse

/-- A refresh of a cold cache. -/
def coldRun : List (State.Event × State Unit) :=
  historyOf (State.after onePage) (begun fun _ _ => none) oneByOne

theorem tables_after {s : State R} {e : State.Event} (he : ∀ tables, e ≠ .change tables) :
    (s.after config e).tables = s.tables := by
  cases e with
  | change tables => exact absurd rfl (he tables)
  | enter l =>
    show (if _ then _ else _ : State R).tables = _
    split <;> rfl
  | run l =>
    show (s.write _ (Phase.turn config s.tables l (s.phases l)).2).tables = _
    rcases (Phase.turn config s.tables l (s.phases l)).2 with _ | ⟨number, page⟩ | total <;> rfl

/-- As long as nothing changes, there is one moment. -/
theorem moments_historyOf {s₀ : State R} {es : List State.Event}
    (hes : ∀ e ∈ es, ∀ tables, e ≠ .change tables)
    (ht : Moments s₀ (historyOf (State.after config) s₀ es) t) : t = s₀.tables := by
  rcases ht with rfl | ⟨x, hx, rfl⟩
  · rfl
  induction es generalizing x with
  | nil => simp [historyOf] at hx
  | cons e past ih =>
    have hpast := ih fun e he => hes e (List.mem_cons_of_mem _ he)
    rcases List.mem_cons.mp hx with rfl | hx
    · refine (tables_after (hes e List.mem_cons_self)).trans ?_
      cases hh : historyOf (State.after config) s₀ past with
      | nil => rfl
      | cons y rest => exact hpast y (hh ▸ List.mem_cons_self)
    · exact hpast x hx

/-- All tasks get past the semaphore before the first of them has ended. -/
def allAtOnce : List State.Event :=
  List.replicate 3 (.run (.users .osu .performance none)) ++
    ((refreshTasks []).map State.Event.enter).reverse

/-- The row of a player who is no longer in the ranking. -/
def oldRow : UserRow where
  statistics := { userId := 7, mode := .osu, pp := 100, rankedScore := 1000 }
  globalRank := some 1
  user := (some "SE", none)
  rankChangeSince30Days := none
  countryRank := none

/-- One page is cached, of the global ranking by score. -/
def oldPages (k : ListKey) (number : Nat) : Option (Cached Unit) :=
  if k = .users .osu .score none ∧ number = 1 then some (.users [oldRow]) else none

end Soms.Rankings.Refresh
