import MapStyle.Definition
import Mathlib.Algebra.Ring.Parity
import Mathlib.Data.List.Nodup
import Mathlib.Tactic.Lemma

/-!
# Runs of toggles

A toggle removes the first point of interest with an identity, or puts one in front. What a run of
them leaves is read off the run: which identities are saved by how often each is toggled, and with
what by the last toggle of each.
-/

namespace MapStyle.Definition

/-- Toggles in turn. -/
def toggleAll (d : Definition) (toggles : List Poi) : Definition :=
  toggles.foldl togglePoi d

/-- The last toggle of each identity in a run, latest first. -/
def lastToggles : List Poi → List Poi
  | [] => []
  | poi :: toggles =>
    lastToggles toggles ++ if poi.id ∈ toggles.map Poi.id then [] else [poi]

/-- Whether an identity is saved after a run of toggles: it was and is toggled evenly often, or it
was not and is toggled oddly often. -/
def SavedAfter (pois toggles : List Poi) (id : String) : Prop :=
  Xor (id ∈ pois.map Poi.id) (Odd ((toggles.map Poi.id).count id))

instance (pois toggles : List Poi) (id : String) : Decidable (SavedAfter pois toggles id) :=
  inferInstanceAs (Decidable (_ ∧ ¬_ ∨ _ ∧ ¬_))

/-! ### One toggle -/

lemma togglePois_of_mem {pois : List Poi} {poi : Poi} (h : poi.id ∈ pois.map Poi.id) :
    togglePois pois poi = pois.eraseP (·.id == poi.id) := by
  rw [togglePois, List.eraseP_eq_eraseIdx]
  cases hindex : pois.findIdx? (·.id == poi.id) with
  | some i => rfl
  | none =>
    obtain ⟨p, hp, hid⟩ := List.mem_map.mp h
    simpa [hid] using List.findIdx?_eq_none_iff.mp hindex p hp

lemma togglePois_of_not_mem {pois : List Poi} {poi : Poi} (h : poi.id ∉ pois.map Poi.id) :
    togglePois pois poi = poi :: pois := by
  have hindex : pois.findIdx? (·.id == poi.id) = none := by
    rw [List.findIdx?_eq_none_iff]
    intro p hp
    exact beq_false_of_ne fun hid => h (List.mem_map.mpr ⟨p, hp, hid⟩)
  rw [togglePois, hindex]

lemma togglePois_of_nodup {pois : List Poi} {poi : Poi} (h : (pois.map Poi.id).Nodup)
    (hmem : poi.id ∈ pois.map Poi.id) :
    togglePois pois poi = pois.filter fun p => p.id ≠ poi.id := by
  rw [togglePois_of_mem hmem]
  clear hmem
  induction pois with
  | nil => rfl
  | cons p pois ih =>
    obtain ⟨hp, hrest⟩ := List.nodup_cons.mp h
    by_cases hid : p.id = poi.id
    · have hother : ∀ q ∈ pois, q.id ≠ poi.id := by
        intro q hq heq
        exact hp (List.mem_map.mpr ⟨q, hq, heq.trans hid.symm⟩)
      rw [List.eraseP_cons_of_pos (by simpa using hid),
        List.filter_cons_of_neg (by simpa using hid),
        List.filter_eq_self.mpr (by simpa using hother)]
    · rw [List.eraseP_cons_of_neg (by simpa using hid),
        List.filter_cons_of_pos (by simpa using hid), ih hrest]

lemma mem_togglePois {pois : List Poi} {poi p : Poi} (h : p ∈ togglePois pois poi) :
    p = poi ∨ p ∈ pois := by
  by_cases hid : poi.id ∈ pois.map Poi.id
  · rw [togglePois_of_mem hid] at h
    exact .inr (List.mem_of_mem_eraseP h)
  · rw [togglePois_of_not_mem hid] at h
    exact List.mem_cons.mp h

lemma map_id_togglePois (pois : List Poi) (poi : Poi) :
    (togglePois pois poi).map Poi.id =
      if poi.id ∈ pois.map Poi.id then (pois.map Poi.id).erase poi.id
      else poi.id :: pois.map Poi.id := by
  split
  · next h =>
    rw [togglePois_of_mem h, List.erase_eq_eraseP, List.eraseP_map]
    congr 2
    funext p
    exact Bool.beq_comm
  · next h => rw [togglePois_of_not_mem h, List.map_cons]

lemma nodup_togglePois {pois : List Poi} (h : (pois.map Poi.id).Nodup) (poi : Poi) :
    ((togglePois pois poi).map Poi.id).Nodup := by
  rw [map_id_togglePois]
  split
  · exact h.erase poi.id
  · next hid => exact List.nodup_cons.mpr ⟨hid, h⟩

/-- How often an identity is saved after a toggle of it, by how often it was before. -/
def toggleCount (n : Nat) : Nat :=
  if n = 0 then 1 else n - 1

lemma count_togglePois (pois : List Poi) (poi : Poi) (id : String) :
    ((togglePois pois poi).map Poi.id).count id =
      if poi.id = id then toggleCount ((pois.map Poi.id).count id)
      else (pois.map Poi.id).count id := by
  rw [map_id_togglePois, toggleCount]
  by_cases hid : poi.id = id
  · subst hid
    by_cases h : poi.id ∈ pois.map Poi.id
    · have hpos := List.count_pos_iff.mpr h
      rw [if_pos h, if_pos rfl, if_neg (by omega), List.count_erase_self]
    · rw [if_neg h, if_pos rfl, if_pos (List.count_eq_zero.mpr h), List.count_cons_self,
        List.count_eq_zero.mpr h]
  · rw [if_neg hid]
    split
    · exact List.count_erase_of_ne (Ne.symm hid)
    · exact List.count_cons_of_ne hid

lemma filter_togglePois {pois : List Poi} {poi : Poi} {q : Poi → Bool}
    (h : ∀ p : Poi, p.id = poi.id → q p = false) :
    (togglePois pois poi).filter q = pois.filter q := by
  by_cases hmem : poi.id ∈ pois.map Poi.id
  · rw [togglePois_of_mem hmem]
    clear hmem
    induction pois with
    | nil => rfl
    | cons p pois ih =>
      by_cases hid : p.id = poi.id
      · simp [hid, h p hid]
      · rw [List.eraseP_cons_of_neg (by simpa using hid), List.filter_cons, List.filter_cons, ih]
  · rw [togglePois_of_not_mem hmem, List.filter_cons, h poi rfl]
    rfl

lemma togglePois_twice_of_not_mem {pois : List Poi} {p q : Poi} (hid : q.id = p.id)
    (h : p.id ∉ pois.map Poi.id) : togglePois (togglePois pois p) q = pois := by
  have hmem : q.id ∈ (p :: pois).map Poi.id := by
    rw [List.map_cons, hid]
    exact List.mem_cons_self
  rw [togglePois_of_not_mem h, togglePois_of_mem hmem,
    List.eraseP_cons_of_pos (by simpa using hid.symm)]

lemma togglePois_twice_of_mem {pois : List Poi} (h : (pois.map Poi.id).Nodup) {p q : Poi}
    (hid : q.id = p.id) (hp : p.id ∈ pois.map Poi.id) :
    togglePois (togglePois pois p) q = q :: pois.filter fun s => s.id ≠ p.id := by
  have hremoved : q.id ∉ (togglePois pois p).map Poi.id := by
    rw [map_id_togglePois, if_pos hp, hid]
    exact h.not_mem_erase
  rw [togglePois_of_not_mem hremoved, togglePois_of_nodup h hp]

/-! ### Runs -/

lemma pois_toggleAll (d : Definition) (toggles : List Poi) :
    (d.toggleAll toggles).pois = toggles.foldl togglePois d.pois := by
  unfold toggleAll
  induction toggles generalizing d with
  | nil => rfl
  | cons poi toggles ih => exact ih (d.togglePoi poi)

lemma rules_toggleAll (d : Definition) (toggles : List Poi) :
    (d.toggleAll toggles).rules = d.rules := by
  unfold toggleAll
  induction toggles generalizing d with
  | nil => rfl
  | cons poi toggles ih => exact ih (d.togglePoi poi)

lemma filter_foldl_togglePois {pois toggles : List Poi} {q : Poi → Bool}
    (h : ∀ p : Poi, p.id ∈ toggles.map Poi.id → q p = false) :
    (toggles.foldl togglePois pois).filter q = pois.filter q := by
  induction toggles generalizing pois with
  | nil => rfl
  | cons poi toggles ih =>
    rw [List.foldl_cons, ih fun p hp => h p (List.mem_cons_of_mem _ hp)]
    exact filter_togglePois fun p hp => h p (hp ▸ List.mem_cons_self)

lemma count_foldl_togglePois (pois toggles : List Poi) (id : String) :
    ((toggles.foldl togglePois pois).map Poi.id).count id =
      toggleCount^[(toggles.map Poi.id).count id] ((pois.map Poi.id).count id) := by
  induction toggles generalizing pois with
  | nil => rfl
  | cons poi toggles ih =>
    rw [List.foldl_cons, ih, count_togglePois, List.map_cons]
    by_cases hid : poi.id = id
    · rw [if_pos hid, hid, List.count_cons_self, Function.iterate_succ_apply]
    · rw [if_neg hid, List.count_cons_of_ne hid]

lemma iterate_toggleCount (n k : Nat) :
    toggleCount^[k] n = if k ≤ n then n - k else (k - n) % 2 := by
  induction k generalizing n with
  | zero => simp
  | succ k ih =>
    rw [Function.iterate_succ_apply, ih, toggleCount]
    split_ifs <;> omega

/-- An identity is saved after a run that toggles it less often than it is saved before, or more
often by an odd number. -/
lemma mem_foldl_togglePois_iff (pois toggles : List Poi) (id : String) :
    id ∈ (toggles.foldl togglePois pois).map Poi.id ↔
      (toggles.map Poi.id).count id < (pois.map Poi.id).count id ∨
        Odd ((toggles.map Poi.id).count id - (pois.map Poi.id).count id) := by
  rw [← List.count_pos_iff, count_foldl_togglePois, iterate_toggleCount, Nat.odd_iff]
  split_ifs <;> omega

lemma mem_foldl_togglePois_of_nodup {pois : List Poi} (h : (pois.map Poi.id).Nodup)
    (toggles : List Poi) (id : String) :
    id ∈ (toggles.foldl togglePois pois).map Poi.id ↔ SavedAfter pois toggles id := by
  rw [mem_foldl_togglePois_iff, SavedAfter]
  by_cases hid : id ∈ pois.map Poi.id
  · rw [List.count_eq_one_of_mem h hid, eq_true hid, xor_true, Nat.odd_iff, Nat.odd_iff]
    omega
  · rw [List.count_eq_zero.mpr hid, eq_false hid, xor_false]
    simp

lemma nodup_foldl_togglePois {pois : List Poi} (h : (pois.map Poi.id).Nodup) (toggles : List Poi) :
    ((toggles.foldl togglePois pois).map Poi.id).Nodup := by
  induction toggles generalizing pois with
  | nil => exact h
  | cons poi toggles ih => exact ih (nodup_togglePois h poi)

lemma savedAfter_cons_iff {pois : List Poi} (h : (pois.map Poi.id).Nodup) (poi : Poi)
    (toggles : List Poi) (id : String) :
    SavedAfter pois (poi :: toggles) id ↔ SavedAfter (togglePois pois poi) toggles id := by
  rw [← mem_foldl_togglePois_of_nodup h, ← mem_foldl_togglePois_of_nodup (nodup_togglePois h poi),
    List.foldl_cons]

/-! ### What a run leaves -/

lemma mem_lastToggles_iff {toggles : List Poi} {poi : Poi} :
    poi ∈ lastToggles toggles ↔
      ∃ before after, toggles = before ++ poi :: after ∧ poi.id ∉ after.map Poi.id := by
  induction toggles with
  | nil => simp [lastToggles]
  | cons first toggles ih =>
    rw [lastToggles, List.mem_append, ih, List.mem_ite_nil_left, List.mem_singleton]
    constructor
    · rintro (⟨before, after, rfl, hlast⟩ | ⟨hlast, rfl⟩)
      · exact ⟨first :: before, after, rfl, hlast⟩
      · exact ⟨[], toggles, rfl, hlast⟩
    · rintro ⟨before, after, htoggles, hlast⟩
      cases before with
      | nil =>
        obtain ⟨rfl, rfl⟩ := List.cons.inj htoggles
        exact .inr ⟨hlast, rfl⟩
      | cons _ before =>
        obtain ⟨-, rfl⟩ := List.cons.inj htoggles
        exact .inl ⟨before, after, rfl, hlast⟩

lemma sublist_lastToggles (toggles : List Poi) :
    (lastToggles toggles).Sublist toggles.reverse := by
  induction toggles with
  | nil => exact .slnil
  | cons poi toggles ih =>
    rw [lastToggles, List.reverse_cons]
    apply ih.append
    split
    · exact List.nil_sublist [poi]
    · exact List.Sublist.refl [poi]

lemma savedAfter_of_not_mem {pois toggles : List Poi} {id : String}
    (h : id ∉ toggles.map Poi.id) : SavedAfter pois toggles id ↔ id ∈ pois.map Poi.id := by
  rw [SavedAfter, List.count_eq_zero.mpr h, xor_comm, eq_false Nat.not_odd_zero, xor_false]
  rfl

lemma mem_map_id_togglePois_iff {pois : List Poi} (h : (pois.map Poi.id).Nodup) (poi : Poi) :
    poi.id ∈ (togglePois pois poi).map Poi.id ↔ poi.id ∉ pois.map Poi.id := by
  rw [map_id_togglePois]
  split
  · next hmem => simp [hmem, h.not_mem_erase]
  · next hmem => simp [hmem]

lemma filter_togglePois_not_mem {pois : List Poi} (h : (pois.map Poi.id).Nodup) (poi : Poi)
    (toggles : List Poi) :
    (togglePois pois poi).filter (fun p => p.id ∉ toggles.map Poi.id) =
      (if poi.id ∈ toggles.map Poi.id then [] else [poi]).filter
          (fun p => SavedAfter (togglePois pois poi) toggles p.id) ++
        pois.filter fun p => p.id ∉ (poi :: toggles).map Poi.id := by
  have hsplit : ∀ p : Poi, p.id ∉ (poi :: toggles).map Poi.id ↔
      p.id ≠ poi.id ∧ p.id ∉ toggles.map Poi.id := by
    intro p
    rw [List.map_cons, List.mem_cons, not_or]
  simp only [hsplit]
  -- A later toggle with the identity hides what this one does, as only others are looked at.
  by_cases htoggled : poi.id ∈ toggles.map Poi.id
  · rw [if_pos htoggled, filter_togglePois (fun p hp => by simp [hp, htoggled])]
    apply List.filter_congr
    intro p _
    have hne : p.id ∉ toggles.map Poi.id → p.id ≠ poi.id := fun hp heq => hp (heq ▸ htoggled)
    simpa using hne
  · have hsaved : SavedAfter (togglePois pois poi) toggles poi.id ↔ poi.id ∉ pois.map Poi.id := by
      rw [savedAfter_of_not_mem htoggled, mem_map_id_togglePois_iff h]
    rw [if_neg htoggled]
    by_cases hmem : poi.id ∈ pois.map Poi.id
    · rw [List.filter_cons_of_neg (by simpa [hsaved] using hmem), togglePois_of_nodup h hmem,
        List.filter_filter]
      simp [Bool.and_comm]
    · have hne : ∀ p ∈ pois, p.id ≠ poi.id := by
        intro p hp heq
        exact hmem (List.mem_map.mpr ⟨p, hp, heq⟩)
      rw [List.filter_cons_of_pos (by simpa [hsaved] using hmem), togglePois_of_not_mem hmem,
        List.filter_cons_of_pos (by simpa using htoggled), List.filter_nil, List.singleton_append]
      congr 1
      apply List.filter_congr
      intro p hp
      simp [hne p hp]

lemma foldl_togglePois_eq {pois : List Poi} (h : (pois.map Poi.id).Nodup) (toggles : List Poi) :
    toggles.foldl togglePois pois =
      (lastToggles toggles).filter (fun p => SavedAfter pois toggles p.id) ++
        pois.filter fun p => p.id ∉ toggles.map Poi.id := by
  induction toggles generalizing pois with
  | nil => simp [lastToggles]
  | cons poi toggles ih =>
    have hnext := nodup_togglePois h poi
    simp only [List.foldl_cons, ih hnext, filter_togglePois_not_mem h, savedAfter_cons_iff h,
      lastToggles, List.filter_append, List.append_assoc]

lemma savedAfter_split_iff {pois : List Poi} (h : (pois.map Poi.id).Nodup) (before : List Poi)
    {poi : Poi} {after : List Poi} (hlast : poi.id ∉ after.map Poi.id) :
    SavedAfter pois (before ++ poi :: after) poi.id ↔
      poi.id ∉ (before.foldl togglePois pois).map Poi.id := by
  have hbefore := nodup_foldl_togglePois h before
  rw [← mem_foldl_togglePois_of_nodup h, List.foldl_append, List.foldl_cons,
    mem_foldl_togglePois_of_nodup (nodup_togglePois hbefore poi), savedAfter_of_not_mem hlast,
    mem_map_id_togglePois_iff hbefore]

/-- What a run of toggles leaves of distinct points of interest. An identity is saved afterwards if
it was and is toggled evenly often, or was not and is toggled oddly often. Those that the run puts
in come first, latest first, each from the last toggle of its identity, which is one that inserts;
those that are never toggled follow as they were. Rules do not change. So toggling twice restores
the list, or brings a point of interest that was saved to the front with what the second toggle
says. -/
theorem pois_toggleAll_of_nodup {d : Definition} (h : (d.pois.map Poi.id).Nodup)
    (toggles : List Poi) :
    (d.toggleAll toggles).rules = d.rules ∧
    (∀ id, id ∈ (d.toggleAll toggles).pois.map Poi.id ↔ SavedAfter d.pois toggles id) ∧
    (d.toggleAll toggles).pois =
      (lastToggles toggles).filter (fun p => SavedAfter d.pois toggles p.id) ++
        d.pois.filter (fun p => p.id ∉ toggles.map Poi.id) ∧
    (lastToggles toggles).Sublist toggles.reverse ∧
    (∀ p, p ∈ lastToggles toggles ∧ SavedAfter d.pois toggles p.id ↔
      ∃ before after, toggles = before ++ p :: after ∧
        p.id ∉ (d.toggleAll before).pois.map Poi.id ∧ p.id ∉ after.map Poi.id) ∧
    ∀ p q : Poi, q.id = p.id →
      (p.id ∉ d.pois.map Poi.id → (d.toggleAll [p, q]).pois = d.pois) ∧
      (p.id ∈ d.pois.map Poi.id →
        (d.toggleAll [p, q]).pois = q :: d.pois.filter fun s => s.id ≠ p.id) := by
  refine ⟨rules_toggleAll d toggles, ?_, ?_, sublist_lastToggles toggles, ?_, ?_⟩
  · intro id
    rw [pois_toggleAll, mem_foldl_togglePois_of_nodup h]
  · rw [pois_toggleAll, foldl_togglePois_eq h]
  · intro p
    rw [mem_lastToggles_iff]
    constructor
    · rintro ⟨⟨before, after, rfl, hlast⟩, hsaved⟩
      refine ⟨before, after, rfl, ?_, hlast⟩
      rwa [pois_toggleAll, ← savedAfter_split_iff h before hlast]
    · rintro ⟨before, after, rfl, hinserts, hlast⟩
      rw [pois_toggleAll] at hinserts
      exact ⟨⟨before, after, rfl, hlast⟩, (savedAfter_split_iff h before hlast).mpr hinserts⟩
  · intro p q hid
    exact ⟨togglePois_twice_of_not_mem hid, togglePois_twice_of_mem h hid⟩

/-- A definition without rules in which two places are saved. -/
def twoPlaces : Definition :=
  ⟨⟨"places"⟩, [], [⟨"1", ⟨1.0, 1.0⟩, "Gate", "monument"⟩, ⟨"2", ⟨2.0, 2.0⟩, "Cafe", "cafe"⟩]⟩

theorem pois_toggleAll_twoPlaces : (twoPlaces.pois.map Poi.id).Nodup ∧
    (twoPlaces.toggleAll [⟨"1", ⟨1.0, 1.5⟩, "Gates", "gate"⟩, ⟨"3", ⟨3.0, 3.0⟩, "Zoo", "zoo"⟩,
      ⟨"1", ⟨1.5, 1.0⟩, "Old Gate", "gate"⟩]).pois =
      [⟨"1", ⟨1.5, 1.0⟩, "Old Gate", "gate"⟩, ⟨"3", ⟨3.0, 3.0⟩, "Zoo", "zoo"⟩,
        ⟨"2", ⟨2.0, 2.0⟩, "Cafe", "cafe"⟩] := by
  have hnodup : (twoPlaces.pois.map Poi.id).Nodup := by decide
  refine ⟨hnodup, ?_⟩
  rw [(pois_toggleAll_of_nodup hnodup _).2.2.1]
  rfl

end MapStyle.Definition
