import Soms.Somsai.Balance
import Soms.Somsai.Change
import Soms.Somsai.Distinct

/-!
# The matches of a queue

`match_queues` takes the oldest entry of a group and looks for the smallest team it can fill
around it.  An entry that finds none is passed over for good, and loses nothing by it: what is
left of the group only shrinks, so that the entries it could have played with are those it was
compared with.
-/

namespace Soms.Somsai

open Txn World

/-! ## Splits without an order -/

/-- The entries can be divided, whole, between two full teams. -/
def Splittable (entries : List QueueEntry) (size : Nat) : Prop :=
  ∃ left right, (left ++ right).Perm entries ∧ (unitMembers left).length = size ∧
    (unitMembers right).length = size

section Split

variable {entries : List QueueEntry} {size : Nat}

theorem Splittable.perm {entries' : List QueueEntry} (h : Splittable entries size)
    (hperm : entries.Perm entries') : Splittable entries' size := by
  obtain ⟨left, right, hentries, hleft, hright⟩ := h
  exact ⟨left, right, hentries.trans hperm, hleft, hright⟩

theorem Splits.splittable {choice : Nat → Bool} (h : Splits entries size choice) :
    Splittable entries size :=
  ⟨_, _, perm_unitsOn choice entries, h.left, h.right⟩

theorem unitsOn_cons (choice : Nat → Bool) (side : Bool) (e : QueueEntry)
    (entries : List QueueEntry) : unitsOn choice side (e :: entries) =
      (if choice 0 = side then [e] else []) ++ unitsOn (fun i => choice (i + 1)) side entries := by
  unfold unitsOn
  rw [List.zipIdx_cons', List.filter_cons, List.filter_map]
  by_cases hside : choice 0 = side <;> simp [hside, Function.comp_def]

/-- Every division is that of a choice. -/
theorem exists_choice {left right : List QueueEntry} (h : (left ++ right).Perm entries) :
    ∃ choice, (unitsOn choice true entries).Perm left ∧
      (unitsOn choice false entries).Perm right := by
  induction entries generalizing left right with
  | nil =>
    obtain ⟨rfl, rfl⟩ := List.append_eq_nil_iff.mp h.eq_nil
    exact ⟨fun _ => true, .refl _, .refl _⟩
  | cons e rest ih =>
    rcases List.mem_append.mp (h.mem_iff.mpr List.mem_cons_self) with hleft | hright
    · have hperm := List.perm_cons_erase hleft
      obtain ⟨choice, htrue, hfalse⟩ := ih (((hperm.symm.append_right right).trans h).cons_inv)
      refine ⟨fun i => i.casesOn true choice, ?_, ?_⟩
      · rw [unitsOn_cons]
        exact (htrue.cons e).trans hperm.symm
      · rw [unitsOn_cons]
        exact hfalse
    · have hperm := List.perm_cons_erase hright
      have hmiddle : (e :: (left ++ right.erase e)).Perm (e :: rest) :=
        (List.perm_middle.symm.trans (hperm.symm.append_left left)).trans h
      obtain ⟨choice, htrue, hfalse⟩ := ih hmiddle.cons_inv
      refine ⟨fun i => i.casesOn false choice, ?_, ?_⟩
      · rw [unitsOn_cons]
        exact htrue
      · rw [unitsOn_cons]
        exact (hfalse.cons e).trans hperm.symm

theorem Splittable.exists_splits (h : Splittable entries size) :
    ∃ choice, Splits entries size choice := by
  obtain ⟨left, right, hperm, hleft, hright⟩ := h
  obtain ⟨choice, htrue, hfalse⟩ := exists_choice hperm
  exact ⟨choice, (htrue.flatMap_right _).length_eq.trans hleft,
    (hfalse.flatMap_right _).length_eq.trans hright⟩

theorem unitMembers_filter (entries : List QueueEntry) :
    unitMembers (entries.filter fun e => decide (e.members ≠ [])) = unitMembers entries := by
  induction entries with
  | nil => rfl
  | cons e rest ih =>
    simp only [unitMembers, List.filter_cons, List.flatMap_cons] at ih ⊢
    by_cases he : e.members = []
    · rw [if_neg (by simpa using he), he, ih]
      rfl
    · rw [if_pos (by simpa using he), List.flatMap_cons, ih]

/-- Entries of nobody do not matter. -/
theorem Splittable.filter (h : Splittable entries size) :
    Splittable (entries.filter fun e => decide (e.members ≠ [])) size := by
  obtain ⟨left, right, hperm, hleft, hright⟩ := h
  refine ⟨_, _, ?_, (congrArg List.length (unitMembers_filter left)).trans hleft,
    (congrArg List.length (unitMembers_filter right)).trans hright⟩
  rw [← List.filter_append]
  exact hperm.filter _

theorem length_le_unitMembers (h : ∀ e ∈ entries, e.members ≠ []) :
    entries.length ≤ (unitMembers entries).length := by
  induction entries with
  | nil => simp
  | cons e rest ih =>
    have hrest := ih fun e he => h e (List.mem_cons_of_mem _ he)
    have hone : 0 < e.members.length := List.length_pos_iff.mpr (h e List.mem_cons_self)
    simp only [unitMembers, List.flatMap_cons, List.length_append, List.length_cons] at hrest ⊢
    omega

theorem Splittable.total (h : Splittable entries size) :
    (unitMembers entries).length = size * 2 := by
  obtain ⟨choice, hsplits⟩ := h.exists_splits
  exact hsplits.total

theorem not_splittable_nil (hsize : 0 < size) : ¬ Splittable [] size := by
  intro h
  have htotal := h.total
  simp only [unitMembers, List.flatMap_nil, List.length_nil] at htotal
  omega

/-- One entry cannot be divided. -/
theorem not_splittable_single (e : QueueEntry) (hsize : 0 < size) : ¬ Splittable [e] size := by
  rintro ⟨left, right, hperm, hleft, hright⟩
  have hlength := hperm.length_eq
  rw [List.length_append, List.length_singleton] at hlength
  rcases Nat.eq_zero_or_pos left.length with hnone | hsome
  · rw [List.length_eq_zero_iff.mp hnone] at hleft
    exact hsize.ne hleft
  · have hnone : right.length = 0 := by omega
    rw [List.length_eq_zero_iff.mp hnone] at hright
    exact hsize.ne hright

end Split

/-! ## The group around an anchor -/

section Group

variable {now : Time} {size : Nat} {anchor : QueueRow} {rest : List QueueRow}

/-- Every two of the rows are compatible. -/
def Compatible (now : Time) (rows : List QueueRow) : Prop :=
  rows.Pairwise fun x y => queueEntriesCompatible x.2 y.2 now = true

theorem Compatible.perm {rows rows' : List QueueRow} (h : Compatible now rows)
    (hperm : rows.Perm rows') : Compatible now rows' := by
  refine (hperm.pairwise_iff fun {x y} hxy => ?_).mp h
  rwa [queueEntriesCompatible_comm]

theorem allCompatible_iff {rows : List QueueRow} :
    allCompatible now rows = true ↔ Compatible now rows := by
  unfold Compatible
  induction rows with
  | nil => simp [allCompatible]
  | cons x rest ih =>
    rw [allCompatible, Bool.and_eq_true, List.pairwise_cons, ih, List.all_eq_true]

theorem combinations_of_sublist {α : Type} {l c : List α} (h : c.Sublist l) :
    c ∈ combinations c.length l := by
  induction h with
  | slnil => simp [combinations]
  | @cons c l a h ih =>
    cases c with
    | nil => simp [combinations]
    | cons b c => exact List.mem_append_right _ ih
  | @cons_cons c l a h ih => exact List.mem_append_left _ (List.mem_map_of_mem ih)

/-- The selected entries have the anchor, go together and fill two teams. -/
theorem selectGroup_spec {selected : List QueueRow} {teams : PerTeam (List UserId)}
    (h : selectGroup now size anchor rest = some (selected, teams)) :
    selected.Sublist (anchor :: rest) ∧ anchor ∈ selected ∧ Compatible now selected ∧
      ∃ choice, Splits (selected.map Prod.snd) size choice ∧
        teams = teamsOf (selected.map Prod.snd) choice := by
  obtain ⟨candidate, hmem, hcandidate⟩ := List.exists_of_findSome?_eq_some h
  split at hcandidate
  · next hall =>
    obtain ⟨teams', hteams, heq⟩ := Option.map_eq_some_iff.mp hcandidate
    obtain ⟨rfl, rfl⟩ := Prod.mk.inj heq
    have hanchor : anchor ∈ candidate := by
      obtain ⟨count, -, hcount⟩ := List.mem_flatMap.mp hmem
      split at hcount
      · simp at hcount
      · obtain ⟨others, -, rfl⟩ := List.mem_map.mp hcount
        exact List.mem_cons_self
    have hne : candidate.map Prod.snd ≠ [] := by
      simpa using List.ne_nil_of_mem hanchor
    obtain ⟨choice, hsplits, hchoice, -⟩ := balanceUnits_some hne hteams
    exact ⟨(selectGroup_some h).1, hanchor, allCompatible_iff.mp hall, choice, hsplits, hchoice⟩
  · simp at hcandidate

/-- Where the anchor finds no group there is none to find. -/
theorem not_splittable_of_selectGroup (hsize : 0 < size) (hlength : rest.length ≤ 32)
    (h : selectGroup now size anchor rest = none) {others : List QueueRow}
    (hsub : others.Sublist rest) (hcompatible : Compatible now (anchor :: others))
    (hmembers : ∀ x ∈ anchor :: others, x.2.members ≠ []) :
    ¬ Splittable ((anchor :: others).map Prod.snd) size := by
  intro hsplit
  obtain ⟨choice, hsplits⟩ := hsplit.exists_splits
  have hpos : others.length ≠ 0 := by
    intro hnone
    rw [List.length_eq_zero_iff.mp hnone] at hsplit
    exact not_splittable_single anchor.2 hsize hsplit
  have hcount : others.length < size * 2 := by
    have hle := length_le_unitMembers (List.forall_mem_map.mpr hmembers)
    rw [hsplit.total, List.length_map, List.length_cons] at hle
    omega
  have hnearby : others.Sublist
      ((rest.take 32).filter fun x => queueEntriesCompatible anchor.2 x.2 now) := by
    rw [List.take_of_length_le hlength]
    have hall := (List.pairwise_cons.mp hcompatible).1
    have hself : others.filter (fun x => queueEntriesCompatible anchor.2 x.2 now) = others :=
      List.filter_eq_self.mpr hall
    exact hself ▸ hsub.filter _
  -- the rows are a candidate of the search
  have hnone := List.findSome?_eq_none_iff.mp h (anchor :: others)
    (List.mem_flatMap.mpr ⟨others.length, List.mem_range.mpr hcount, by
      rw [if_neg hpos]
      exact List.mem_map_of_mem (combinations_of_sublist hnearby)⟩)
  rw [if_pos (allCompatible_iff.mpr hcompatible), Option.map_eq_none_iff] at hnone
  exact (balanceUnits_none (by simp)).mp hnone choice hsplits

end Group

/-! ## One turn of the loop -/

section Turn

variable {ctx : Ctx} {w t : World} {selected entries : List QueueRow}
  {teams : PerTeam (List UserId)} {anchor : QueueEntry}

/-- The match is made of the selected entries, each of them whole on one of its full teams. -/
structure MadeOf (now : Time) (selected : List QueueRow) (m : Match) : Prop where
  group : ∀ x ∈ selected, x.2.group = (m.rulesetId, m.variantId, m.format)
  compatible : Compatible now selected
  teams : ∃ choice, Splits (selected.map Prod.snd) m.format.size choice ∧
    m.state.teams = teamsOf (selected.map Prod.snd) choice

/-- A match of at least one player that cannot be created is refused with a reason. -/
theorem createMatch_refused {setup : Setup} {e : Failure} (hhumans : setup.humans ≠ [])
    (h : createMatch ctx setup w = (.error e, t)) : ∃ message status, e = .http status message := by
  simp only [createMatch, bind_error, refuse_ok, refuse_error, write_ok, write_error, read_ok,
    read_error, attempt_ok, attempt_error, pure_error, false_or, or_false, and_false,
    exists_false] at h
  rcases h with ⟨⟨-, rfl⟩, -⟩ | ⟨_, _, -, _, v, -, _, _, ⟨hratings, -⟩,
    ⟨⟨hnone, -⟩, -⟩ | ⟨_, _, -, ⟨⟨-, rfl⟩, -⟩ | ⟨_, _, -, _, _, -, hpool, -⟩⟩⟩
  · exact ⟨_, _, rfl⟩
  · rw [← hratings, List.map_eq_nil_iff] at hnone
    exact absurd hnone hhumans
  · exact ⟨_, _, rfl⟩
  · obtain ⟨message, rfl⟩ := mixedPool_error _ _ _ _ _ _ _ hpool
    exact ⟨_, _, rfl⟩

/-- A turn that makes a match returns, and only the rows of the match leave the queue. -/
theorem makeMatch_returns (hteams : teams.red ++ teams.blue ≠ []) :
    Returns (makeMatch ctx selected teams anchor) w fun _ t =>
      (∀ i, t.queue.row i = if i ∈ selected.map Prod.fst then none else w.queue.row i) ∧
      ∀ k m, t.matchRows.row k = some m → w.matchRows.row k = some m ∨
        (m.rulesetId, m.variantId, m.format) = anchor.group ∧ m.state.teams = teams := by
  have hmake : Returns (recover (do
      let _ ← createMatch ctx (groupSetup selected teams anchor)
      pure ()) (releaseSelected ctx.now selected)) w fun _ v =>
      v.queue = w.queue ∧ ∀ k m, v.matchRows.row k = some m → w.matchRows.row k = some m ∨
        (m.rulesetId, m.variantId, m.format) = anchor.group ∧ m.state.teams = teams := by
    refine returns_recover (fun u v hrun => ?_) fun e v hfail => ?_
    · obtain ⟨k', _, hcreate, hpure⟩ := bind_ok.mp hrun
      obtain ⟨-, rfl⟩ := pure_ok.mp hpure
      obtain ⟨v₁, pool, rating, hquiet, -, -, rfl⟩ := createMatch_ok hcreate
      obtain ⟨activity, hpoint⟩ := pointAt_frame ctx v₁.matchRows.next
        (groupSetup selected teams anchor).members
        (v₁.addMatch ctx (groupSetup selected teams anchor) pool rating)
      have hrows : v₁.matchRows = w.matchRows := congrArg Core.matchRows hquiet.core
      refine ⟨?_, fun k m hrow => ?_⟩
      · rw [openMatch, hpoint]
        exact congrArg Core.queue hquiet.core
      · rw [row_openMatch, Table.row_insert, hrows] at hrow
        split at hrow
        · obtain rfl := Option.some.inj hrow
          exact .inr ⟨rfl, rfl⟩
        · exact .inl hrow
    · rcases bind_error.mp hfail with hcreate | ⟨_, _, -, hpure⟩
      · have hhumans : (groupSetup selected teams anchor).humans ≠ [] := by
          simpa [Setup.humans, Setup.members, groupSetup] using hteams
        obtain ⟨message, status, rfl⟩ := createMatch_refused hhumans hcreate
        have hquiet := createMatch_error hcreate
        have hrows : v.matchRows = w.matchRows := congrArg Core.matchRows hquiet.core
        obtain ⟨activity, reservations, hall⟩ := releaseAll_frame ctx.now
          (selected.map fun x => x.2.reservationId) v
        refine ⟨_, rfl, returns_write ⟨?_, fun k m hrow => .inl ?_⟩⟩
        · rw [hall]
          exact congrArg Core.queue hquiet.core
        · rwa [hall, hrows] at hrow
      · simp at hpure
  refine hmake.bind fun _ v hv => returns_write ⟨fun i => ?_, fun k m hrow => hv.2 k m ?_⟩
  · rw [row_deleteEntries, hv.1]
  · obtain ⟨queue, hdelete⟩ := deleteEntries_frame selected v
    rwa [hdelete] at hrow

end Turn

/-! ## The loop over a group -/

section Loop

variable {ctx : Ctx} {group : RulesetId × Nat × Format} {entries rest : List QueueRow}
  {anchor : QueueRow} {w v t : World}

/-- No rows that are left of the entries make a match. -/
def Exhausted (now : Time) (size : Nat) (entries : List QueueRow) (w : World) : Prop :=
  ∀ rows : List QueueRow, rows.Sublist entries →
    (∀ x ∈ rows, w.queue.row x.1 = some x.2 ∧ x.2.members ≠ []) → Compatible now rows →
    ¬ Splittable (rows.map Prod.snd) size

/-- What the loop over the entries of a group comes to. -/
structure Matched (ctx : Ctx) (group : RulesetId × Nat × Format) (entries : List QueueRow)
    (w t : World) : Prop where
  rows : ∀ i e, t.queue.row i = some e → w.queue.row i = some e
  made : ∀ k m, t.matchRows.row k = some m → w.matchRows.row k = some m ∨
    ∃ selected, selected.Sublist entries ∧ MadeOf ctx.now selected m
  exhausted : entries.length ≤ 33 → Exhausted ctx.now group.2.2.size entries t

theorem Format.size_pos (format : Format) : 0 < format.size := by cases format <;> decide

theorem matched_nil (ctx : Ctx) (group : RulesetId × Nat × Format) (w : World) :
    Matched ctx group [] w w where
  rows _ _ h := h
  made _ _ h := .inl h
  exhausted := by
    rintro - rows hsub - - hsplit
    obtain rfl := List.sublist_nil.mp hsub
    exact not_splittable_nil group.2.2.size_pos hsplit

/-- An anchor that found no group is passed over. -/
theorem Matched.skip (h : Matched ctx group rest w t)
    (hnone : selectGroup ctx.now group.2.2.size anchor rest = none) :
    Matched ctx group (anchor :: rest) w t where
  rows := h.rows
  made k m hrow := by
    rcases h.made k m hrow with hold | ⟨selected, hsub, hmade⟩
    · exact .inl hold
    · exact .inr ⟨selected, hsub.cons anchor, hmade⟩
  exhausted hlength rows hsub hleft hcompatible := by
    rw [List.length_cons] at hlength
    rcases List.sublist_cons_iff.mp hsub with hsub | ⟨others, rfl, hothers⟩
    · exact h.exhausted (by omega) rows hsub hleft hcompatible
    · exact not_splittable_of_selectGroup group.2.2.size_pos (by omega) hnone hothers hcompatible
        fun x hx => (hleft x hx).2

/-- A turn that took rows from the queue, and then the loop over the entries it left. -/
theorem Matched.turn {p : QueueRow → Bool} (h : Matched ctx group (entries.filter p) v t)
    (hrows : ∀ i e, v.queue.row i = some e → w.queue.row i = some e)
    (hmade : ∀ k m, v.matchRows.row k = some m → w.matchRows.row k = some m ∨
      ∃ selected, selected.Sublist entries ∧ MadeOf ctx.now selected m)
    (hgone : ∀ x ∈ entries, v.queue.row x.1 = some x.2 → p x = true) :
    Matched ctx group entries w t where
  rows i e hrow := hrows i e (h.rows i e hrow)
  made k m hrow := by
    rcases h.made k m hrow with hrow | ⟨selected, hsub, hm⟩
    · exact hmade k m hrow
    · exact .inr ⟨selected, hsub.trans List.filter_sublist, hm⟩
  exhausted hlength rows hsub hleft hcompatible := by
    have hself : rows.filter p = rows := List.filter_eq_self.mpr fun x hx =>
      hgone x (hsub.subset hx) (h.rows _ _ (hleft x hx).1)
    refine h.exhausted ((List.length_filter_le p entries).trans hlength) rows ?_ hleft hcompatible
    exact hself ▸ hsub.filter p

theorem length_filter_le_rest {p : QueueRow → Bool} {x : QueueRow} (hx : x ∈ anchor :: rest)
    (hp : p x = false) : ((anchor :: rest).filter p).length ≤ rest.length := by
  have hlt : ((anchor :: rest).filter p).length < (anchor :: rest).length :=
    List.length_filter_lt_length_iff_exists.mpr ⟨x, hx, by simp [hp]⟩
  rw [List.length_cons] at hlt
  omega

/-- **The loop over a group.** -/
theorem matchGroup_returns {fuel : Nat} (hfuel : entries.length ≤ fuel)
    (hgroup : ∀ x ∈ entries, x.2.group = group) (w : World) :
    Returns (matchGroup ctx fuel entries) w fun _ t => Matched ctx group entries w t := by
  induction fuel generalizing entries w with
  | zero =>
    obtain rfl := List.length_eq_zero_iff.mp (Nat.le_zero.mp hfuel)
    exact returns_pure (matched_nil ctx group w)
  | succ fuel ih =>
    cases entries with
    | nil => exact returns_pure (matched_nil ctx group w)
    | cons anchor rest =>
      have hsize : anchor.2.format.size = group.2.2.size := by
        rw [← hgroup anchor List.mem_cons_self]
        rfl
      rw [List.length_cons] at hfuel
      unfold matchGroup
      rw [hsize]
      cases hselect : selectGroup ctx.now group.2.2.size anchor rest with
      | none =>
        have hrest : ∀ x ∈ rest, x.2.group = group := fun x hx =>
          hgroup x (List.mem_cons_of_mem _ hx)
        exact (ih (by omega) hrest w).mono fun _ t ht => ht.skip hselect
      | some found =>
        obtain ⟨selected, teams⟩ := found
        obtain ⟨hsub, hanchor, hcompatible, choice, hsplits, rfl⟩ := selectGroup_spec hselect
        -- the loop goes on with fewer entries
        have hshorter : ∀ {p : QueueRow → Bool} {x}, x ∈ anchor :: rest → p x = false →
            ((anchor :: rest).filter p).length ≤ fuel := fun hx hp =>
          (length_filter_le_rest hx hp).trans (by omega)
        have hother : ∀ {p : QueueRow → Bool}, ∀ x ∈ (anchor :: rest).filter p,
            x.2.group = group := fun x hx => hgroup x (List.mem_filter.mp hx).1
        dsimp only
        refine returns_after (read_ok.mpr ⟨rfl, rfl⟩) ?_
        cases hinvalid : selected.find? fun x =>
            x.2.members.any fun uid => w.isActive uid = false with
        | some x =>
          have hx := hsub.subset (List.mem_of_find?_eq_some hinvalid)
          refine returns_after (a := ()) (write_ok.mpr rfl)
            ((ih (hshorter hx (by simp)) hother _).mono ?_)
          intro _ t ht
          refine ht.turn (fun i e hrow => ?_) (fun k m hrow => .inl ?_) fun y _ hrow => ?_
          · rw [row_dropEntry] at hrow
            split at hrow
            · simp at hrow
            · exact hrow
          · obtain ⟨activity, reservations, hframe⟩ :=
              releaseReservation_frame ctx.now w x.2.reservationId
            rwa [dropEntry, hframe] at hrow
          · rw [row_dropEntry] at hrow
            split at hrow
            · simp at hrow
            · next hne => simpa using hne
        | none =>
          have hteams : (teamsOf (selected.map Prod.snd) choice).red ++
              (teamsOf (selected.map Prod.snd) choice).blue ≠ [] := by
            have hpos := group.2.2.size_pos
            have hleft : (teamsOf (selected.map Prod.snd) choice).red.length = group.2.2.size :=
              hsplits.left
            exact List.append_ne_nil_of_left_ne_nil (List.length_pos_iff.mp (hleft ▸ hpos)) _
          refine (makeMatch_returns hteams).bind fun _ v hv => ?_
          refine (ih (hshorter (hsub.subset hanchor) (by simp [List.mem_map_of_mem hanchor]))
            hother v).mono fun _ t ht => ?_
          refine ht.turn (fun i e hrow => ?_) (fun k m hrow => ?_) fun y _ hrow => ?_
          · rw [hv.1] at hrow
            split at hrow
            · simp at hrow
            · exact hrow
          · refine (hv.2 k m hrow).imp id fun hm =>
              ⟨selected, hsub, ?_, hcompatible, choice, ?_, hm.2⟩
            · intro x hx
              rw [hgroup x (hsub.subset hx), hm.1, hgroup anchor List.mem_cons_self]
            · have hformat : m.format = group.2.2 := by
                rw [← hgroup anchor List.mem_cons_self, ← hm.1]
              rw [hformat]
              exact hsplits
          · rw [hv.1] at hrow
            split at hrow
            · simp at hrow
            · next hne => simpa using hne

/-- The loop takes no more turns than there are entries. -/
theorem matchGroup_fuel {fuel fuel' : Nat} (hfuel : entries.length ≤ fuel)
    (hfuel' : entries.length ≤ fuel') :
    matchGroup ctx fuel entries = matchGroup ctx fuel' entries := by
  induction fuel generalizing fuel' entries with
  | zero =>
    obtain rfl := List.length_eq_zero_iff.mp (Nat.le_zero.mp hfuel)
    cases fuel' <;> rfl
  | succ fuel ih =>
    cases entries with
    | nil => cases fuel' <;> rfl
    | cons anchor rest =>
      obtain ⟨fuel', rfl⟩ : ∃ n, fuel' = n + 1 := Nat.exists_eq_succ_of_ne_zero (by
        rw [List.length_cons] at hfuel'
        omega)
      rw [List.length_cons, Nat.add_le_add_iff_right] at hfuel hfuel'
      unfold matchGroup
      cases hselect : selectGroup ctx.now anchor.2.format.size anchor rest with
      | none => exact ih hfuel hfuel'
      | some found =>
        obtain ⟨selected, teams⟩ := found
        obtain ⟨hsub, hanchor, -⟩ := selectGroup_spec hselect
        funext w
        dsimp only
        rw [bind_read, bind_read]
        cases hinvalid : selected.find? fun x =>
            x.2.members.any fun uid => w.isActive uid = false with
        | some x =>
          have hx := length_filter_le_rest (p := fun y => decide (y.1 ≠ x.1))
            (hsub.subset (List.mem_of_find?_eq_some hinvalid)) (by simp)
          dsimp only
          rw [ih (hx.trans hfuel) (hx.trans hfuel')]
        | none =>
          have hx := length_filter_le_rest (p := fun y => decide (y.1 ∉ selected.map Prod.fst))
            (hsub.subset hanchor) (by simp [List.mem_map_of_mem hanchor])
          dsimp only
          rw [ih (hx.trans hfuel) (hx.trans hfuel')]

end Loop

/-! ## All groups -/

section Groups

variable {ctx : Ctx} {entries : List QueueRow} {groups : List (RulesetId × Nat × Format)}
  {w v t : World}

theorem Exhausted.mono {now : Time} {size : Nat} (h : Exhausted now size entries v)
    (hrows : ∀ i e, t.queue.row i = some e → v.queue.row i = some e) :
    Exhausted now size entries t := fun rows hsub hleft =>
  h rows hsub fun x hx => ⟨hrows _ _ (hleft x hx).1, (hleft x hx).2⟩

theorem rows_dropEntries (now : Time) (rows : List QueueRow) (w : World) :
    (rows.foldl (World.dropEntry now) w).matchRows = w.matchRows := by
  refine foldl_leaves World.matchRows (fun v x => ?_) rows w
  obtain ⟨activity, reservations, hframe⟩ := releaseReservation_frame now v x.2.reservationId
  rw [dropEntry, hframe]

/-- What the loop over the groups comes to. -/
structure AllMatched (ctx : Ctx) (entries : List QueueRow)
    (groups : List (RulesetId × Nat × Format)) (w t : World) : Prop where
  rows : ∀ i e, t.queue.row i = some e → w.queue.row i = some e
  made : ∀ k m, t.matchRows.row k = some m → w.matchRows.row k = some m ∨
    ∃ selected, selected.Sublist entries ∧ MadeOf ctx.now selected m
  exhausted : ∀ group ∈ groups, (entries.filter fun x => x.2.group = group).length ≤ 33 →
    Exhausted ctx.now group.2.2.size (entries.filter fun x => x.2.group = group) t

theorem matchEntries_returns (w : World) :
    Returns (groups.forM (matchEntries ctx entries)) w fun _ t =>
      AllMatched ctx entries groups w t := by
  induction groups generalizing w with
  | nil => exact returns_pure ⟨fun _ _ h => h, fun _ _ h => .inl h, by simp⟩
  | cons group rest ih =>
    have hgroup : ∀ x ∈ entries.filter fun x => x.2.group = group, x.2.group = group :=
      fun x hx => of_decide_eq_true (List.mem_filter.mp hx).2
    refine (matchGroup_returns le_rfl hgroup w).bind fun _ v hv => ?_
    refine (ih v).mono fun _ t ht => ⟨fun i e hrow => ?_, fun k m hrow => ?_, ?_⟩
    · exact hv.rows i e (ht.rows i e hrow)
    · rcases ht.made k m hrow with hrow | hmade
      · refine (hv.made k m hrow).imp id fun ⟨selected, hsub, hm⟩ => ?_
        exact ⟨selected, hsub.trans List.filter_sublist, hm⟩
      · exact .inr hmade
    · intro other hother hlength
      rcases List.mem_cons.mp hother with rfl | hother
      · exact (hv.exhausted hlength).mono ht.rows
      · exact ht.exhausted other hother hlength

/-- **The matches of a queue.**  `match_queues` returns; each match it makes is of unexpired
entries of one group that go together, each whole on one of its full teams; and of a group of at
most 33 entries it leaves no rows that could make a match.  The last part says that the fuel is
no bound on the loop. -/
theorem matchQueues_complete (ctx : Ctx) (w : World) :
    (∃ t, matchQueues ctx w = (.ok (), t) ∧
      (∀ k m, t.matchRows.row k = some m → w.matchRows.row k = some m ∨
        ∃ selected, selected.Nodup ∧ MadeOf ctx.now selected m ∧
          ∀ x ∈ selected, w.queue.row x.1 = some x.2 ∧ ctx.now < x.2.expiresAt) ∧
      ∀ group, (w.queue.toList.filter fun x =>
          decide (ctx.now < x.2.expiresAt ∧ x.2.group = group)).length ≤ 33 →
        ∀ rows : List QueueRow, rows.Nodup →
          (∀ x ∈ rows, t.queue.row x.1 = some x.2 ∧ x.2.group = group) →
          Compatible ctx.now rows → ¬ Splittable (rows.map Prod.snd) group.2.2.size) ∧
    ∀ fuel entries, entries.length ≤ fuel →
      matchGroup ctx fuel entries = matchGroup ctx entries.length entries := by
  refine ⟨?_, fun fuel entries hfuel => matchGroup_fuel hfuel le_rfl⟩
  obtain ⟨expired, hexpired⟩ : ∃ expired, expired =
    w.queueOrder.filter fun x => decide (x.2.expiresAt ≤ ctx.now) := ⟨_, rfl⟩
  obtain ⟨entries, hentries⟩ : ∃ entries, entries =
    w.queueOrder.filter fun x => decide (ctx.now < x.2.expiresAt) := ⟨_, rfl⟩
  obtain ⟨groups, hgroups⟩ : ∃ groups, groups =
    (entries.map fun x => x.2.group).dedup.insertionSort fun a b => groupBefore a b := ⟨_, rfl⟩
  obtain ⟨_, t, hrun, ht⟩ : Returns (groups.forM (matchEntries ctx entries))
      (expired.foldl (World.dropEntry ctx.now) w) fun _ t =>
        AllMatched ctx entries groups (expired.foldl (World.dropEntry ctx.now) w) t :=
    matchEntries_returns _
  have hrows : w.Rows entries := hentries ▸ w.rows_queueOrder.filter _
  -- a row that is left is one of the entries
  have hleft : ∀ i e, t.queue.row i = some e → (i, e) ∈ entries := by
    intro i e hrow
    have hrow := ht.rows i e hrow
    rw [row_dropEntries] at hrow
    split at hrow
    · simp at hrow
    · next hkept =>
      have hmem : (i, e) ∈ w.queueOrder := w.queueOrder_perm.mem_iff.mpr (Table.mem_toList.mpr hrow)
      rw [hentries, List.mem_filter]
      refine ⟨hmem, decide_eq_true (not_le.mp fun hover => hkept ?_)⟩
      rw [hexpired]
      exact List.mem_map.mpr ⟨(i, e), List.mem_filter.mpr ⟨hmem, decide_eq_true hover⟩, rfl⟩
  refine ⟨t, ?_, fun k m hrow => ?_, fun group hlength rows hnodup hrow hcompatible hsplit => ?_⟩
  · rw [← hrun, hgroups, hentries, hexpired]
    rfl
  · refine (ht.made k m hrow).imp (fun hrow => ?_) fun ⟨selected, hsub, hmade⟩ => ?_
    · rwa [rows_dropEntries] at hrow
    · refine ⟨selected, hsub.nodup (hrows.nodup.of_map _), hmade, fun x hx => ?_⟩
      refine ⟨hrows.current x (hsub.subset hx), ?_⟩
      have hmem := hsub.subset hx
      rw [hentries, List.mem_filter] at hmem
      exact of_decide_eq_true hmem.2
  · have hmem : ∀ x ∈ rows, x ∈ entries.filter fun x => x.2.group = group := fun x hx =>
      List.mem_filter.mpr ⟨hleft _ _ (hrow x hx).1, decide_eq_true (hrow x hx).2⟩
    have hfew : (entries.filter fun x => x.2.group = group).length ≤ 33 := by
      have hperm := w.queueOrder_perm.filter fun x =>
        decide (ctx.now < x.2.expiresAt ∧ x.2.group = group)
      rw [← hperm.length_eq] at hlength
      rw [hentries, List.filter_filter]
      refine (le_of_eq (congrArg List.length (List.filter_congr fun x _ => ?_))).trans hlength
      rw [← Bool.decide_and]
      exact decide_eq_decide.mpr and_comm
    have hgroup : group ∈ groups := by
      have hne : rows ≠ [] := by
        rintro rfl
        exact not_splittable_nil group.2.2.size_pos hsplit
      obtain ⟨x, hx⟩ := List.exists_mem_of_ne_nil rows hne
      obtain ⟨hx, heq⟩ := List.mem_filter.mp (hmem x hx)
      rw [hgroups, List.mem_insertionSort, List.mem_dedup, ← of_decide_eq_true heq]
      exact List.mem_map_of_mem hx
    -- the rows of somebody, in the order of the entries
    obtain ⟨kept, hkept⟩ : ∃ kept, kept = (entries.filter fun x => x.2.group = group).filter
      fun x => decide (x ∈ rows ∧ x.2.members ≠ []) := ⟨_, rfl⟩
    have hperm : kept.Perm (rows.filter fun x => decide (x.2.members ≠ [])) := by
      have hentriesNodup : entries.Nodup := hrows.nodup.of_map _
      rw [hkept]
      refine (List.perm_ext_iff_of_nodup ((hentriesNodup.filter _).filter _)
        (hnodup.filter _)).mpr fun x => ?_
      rw [List.mem_filter, decide_eq_true_eq, @List.mem_filter _ _ rows, decide_eq_true_eq]
      exact ⟨fun h => h.2, fun h => ⟨hmem x h.1, h⟩⟩
    refine ht.exhausted group hgroup hfew kept (hkept ▸ List.filter_sublist) (fun x hx => ?_)
      (Compatible.perm (hcompatible.sublist List.filter_sublist) hperm.symm) ?_
    · rw [hkept, List.mem_filter, decide_eq_true_eq] at hx
      exact ⟨(hrow x hx.2.1).1, hx.2.2⟩
    · have hfilter := hsplit.filter
      rw [List.filter_map] at hfilter
      exact hfilter.perm (hperm.map Prod.snd).symm

end Groups

end Soms.Somsai
