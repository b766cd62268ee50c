import MapStyle.Proofs.Edits

/-!
# Edits that are undone

Every edit of rules has others that take it back: a move the move to where the rule came from, an
addition the removal, a removal the addition and a move down to the old place, a replacement the
replacement by the rule that was there. The definition is then as before, at a later revision.
-/

namespace MapStyle

namespace Definition

variable {d : Definition} {r : Rule} {k : Nat}

/-- The definition some revisions later, with nothing else changed. -/
def later (d : Definition) (n : Nat) : Definition :=
  { d with revision := Revision.next^[n] d.revision }

lemma withRules_withRules (d : Definition) (rules : List Rule) :
    (d.withRules rules).withRules d.rules = d.later 2 := rfl

lemma withRules_withRules_withRules (d : Definition) (rules others : List Rule) :
    ((d.withRules rules).withRules others).withRules d.rules = d.later 3 := by
  simp only [withRules, later, Function.iterate_succ_apply, Function.iterate_zero, id]

/-! ### Items that move -/

section moveItem

variable {α : Type} {items : List α} {item : α} {source target : Nat}

lemma moveItem_of_getElem? (h : items[source]? = some item) (target : Nat) :
    moveItem items source target = (items.eraseIdx source).insertIdx target item := by
  rw [moveItem, h]

lemma getElem?_moveItem (hsource : source < items.length) (htarget : target < items.length) :
    (moveItem items source target)[target]? = items[source]? := by
  have hlength := List.length_eraseIdx_of_lt hsource
  rw [moveItem_of_getElem? (List.getElem?_eq_getElem hsource), List.getElem?_insertIdx_self,
    if_pos (by omega), List.getElem?_eq_getElem hsource]

lemma eraseIdx_moveItem (hsource : source < items.length) :
    (moveItem items source target).eraseIdx target = items.eraseIdx source := by
  rw [moveItem_of_getElem? (List.getElem?_eq_getElem hsource), List.eraseIdx_insertIdx_self]

lemma moveItem_moveItem (hsource : source < items.length) (htarget : target < items.length) :
    moveItem (moveItem items source target) target source = items := by
  -- taken out again, the item leaves the same others: which place is first does not matter
  have hmoved := getElem?_moveItem hsource htarget
  rw [List.getElem?_eq_getElem hsource] at hmoved
  rw [moveItem_of_getElem? hmoved, eraseIdx_moveItem hsource, List.insertIdx_eraseIdx_getElem]

lemma eraseIdx_append_singleton (items : List α) (item : α) :
    (items ++ [item]).eraseIdx items.length = items := by
  rw [List.eraseIdx_append_of_length_le le_rfl, Nat.sub_self, List.eraseIdx_cons_zero,
    List.append_nil]

/-- An item that is taken out, put at the end and moved from there to its old place. -/
lemma moveItem_eraseIdx_append (h : items[source]? = some item) :
    moveItem (items.eraseIdx source ++ [item]) (items.length - 1) source = items := by
  obtain ⟨hsource, rfl⟩ := List.getElem?_eq_some_iff.mp h
  have hlength := List.length_eraseIdx_of_lt hsource
  have hlast : (items.eraseIdx source ++ [items[source]])[items.length - 1]? =
      some items[source] := by
    rw [← hlength, List.getElem?_concat_length]
  rw [moveItem_of_getElem? hlast, ← hlength, eraseIdx_append_singleton,
    List.insertIdx_eraseIdx_getElem]

end moveItem

/-! ### Edits at a known place -/

lemma indexOf_of_getElem? (hids : (d.rules.map Rule.id).Nodup) (hr : d.rules[k]? = some r) :
    d.indexOf r.id = .ok k := by
  obtain ⟨hk, rfl⟩ := List.getElem?_eq_some_iff.mp hr
  have hindex : d.rules.findIdx? (·.id == d.rules[k].id) = some k := by
    rw [List.findIdx?_eq_some_iff_getElem]
    refine ⟨hk, by simp, ?_⟩
    intro j hj
    have hne := List.pairwise_iff_getElem.mp (List.pairwise_map.mp hids) j k (by omega) hk hj
    simpa using hne
  rw [indexOf, hindex]

lemma removeRule_of_getElem? (hids : (d.rules.map Rule.id).Nodup) (hr : d.rules[k]? = some r) :
    d.removeRule r.id = .ok (d.withRules (d.rules.eraseIdx k)) := by
  rw [removeRule, indexOf_of_getElem? hids hr]
  rfl

lemma replaceRule_of_getElem? (hids : (d.rules.map Rule.id).Nodup) (hr : d.rules[k]? = some r)
    {new : Rule} (hid : new.id = r.id) :
    d.replaceRule new = .ok (d.withRules (d.rules.set k new)) := by
  rw [replaceRule, hid, indexOf_of_getElem? hids hr]
  rfl

end Definition

namespace Edit

variable {d : Definition}

lemma run_cons {e : Edit} {edited : Definition} (h : e.apply d = .ok edited) (edits : List Edit) :
    run d (e :: edits) = run edited edits := by
  rw [run, List.foldlM_cons, h]
  rfl

lemma run_singleton (d : Definition) (e : Edit) : run d [e] = e.apply d := by
  simp [run]

lemma run_move_move {source target : Nat} (hsource : source < d.rules.length)
    (htarget : target < d.rules.length) :
    run d [.move source target, .move target source] = .ok (d.later 2) := by
  have hmove : apply d (.move source target) =
      .ok (d.withRules (Definition.moveItem d.rules source target)) :=
    Definition.moveRule_eq_ok_iff.mpr ⟨⟨hsource, htarget⟩, rfl⟩
  have hlength : (Definition.moveItem d.rules source target).length = d.rules.length :=
    (Definition.perm_moveItem d.rules source htarget).length_eq
  have hback : apply (d.withRules (Definition.moveItem d.rules source target))
      (.move target source) =
        .ok ((d.withRules (Definition.moveItem d.rules source target)).withRules
          (Definition.moveItem (Definition.moveItem d.rules source target) target source)) :=
    Definition.moveRule_eq_ok_iff.mpr ⟨⟨hlength ▸ htarget, hlength ▸ hsource⟩, rfl⟩
  rw [run_cons hmove, run_singleton, hback, Definition.moveItem_moveItem hsource htarget,
    Definition.withRules_withRules]

lemma run_add_remove (hids : (d.rules.map Rule.id).Nodup) {r : Rule}
    (hr : r.id ∉ d.rules.map Rule.id) :
    run d [.add r, .remove r.id] = .ok (d.later 2) := by
  have hadd : apply d (.add r) = .ok (d.withRules (d.rules ++ [r])) :=
    Definition.addRule_eq_ok_iff.mpr ⟨hr, rfl⟩
  have hadded : ((d.rules ++ [r]).map Rule.id).Nodup := by
    simpa [List.nodup_append, hids] using hr
  have hremove : apply (d.withRules (d.rules ++ [r])) (.remove r.id) =
      .ok ((d.withRules (d.rules ++ [r])).withRules ((d.rules ++ [r]).eraseIdx d.rules.length)) :=
    Definition.removeRule_of_getElem? hadded List.getElem?_concat_length
  rw [run_cons hadd, run_singleton, hremove, Definition.eraseIdx_append_singleton,
    Definition.withRules_withRules]

lemma run_remove_add_move (hids : (d.rules.map Rule.id).Nodup) {k : Nat} {r : Rule}
    (hr : d.rules[k]? = some r) :
    run d [.remove r.id, .add r, .move (d.rules.length - 1) k] = .ok (d.later 3) := by
  obtain ⟨hk, hget⟩ := List.getElem?_eq_some_iff.mp hr
  have hremove : apply d (.remove r.id) = .ok (d.withRules (d.rules.eraseIdx k)) :=
    Definition.removeRule_of_getElem? hids hr
  -- the identity is free once its only rule is gone
  have hgone : r.id ∉ (d.rules.eraseIdx k).map Rule.id := by
    have hperm := (List.getElem_cons_eraseIdx_perm hk).map Rule.id
    rw [hget, List.map_cons] at hperm
    exact (List.nodup_cons.mp (hperm.nodup_iff.mpr hids)).1
  have hadd : apply (d.withRules (d.rules.eraseIdx k)) (.add r) =
      .ok ((d.withRules (d.rules.eraseIdx k)).withRules (d.rules.eraseIdx k ++ [r])) :=
    Definition.addRule_eq_ok_iff.mpr ⟨hgone, rfl⟩
  have hlength : (d.rules.eraseIdx k ++ [r]).length = d.rules.length := by
    rw [List.length_append, List.length_eraseIdx_of_lt hk, List.length_singleton]
    omega
  have hmove : apply ((d.withRules (d.rules.eraseIdx k)).withRules (d.rules.eraseIdx k ++ [r]))
      (.move (d.rules.length - 1) k) =
        .ok (((d.withRules (d.rules.eraseIdx k)).withRules (d.rules.eraseIdx k ++ [r])).withRules
          (Definition.moveItem (d.rules.eraseIdx k ++ [r]) (d.rules.length - 1) k)) :=
    Definition.moveRule_eq_ok_iff.mpr
      ⟨⟨lt_of_lt_of_eq (by omega) hlength.symm, lt_of_lt_of_eq hk hlength.symm⟩, rfl⟩
  rw [run_cons hremove, run_cons hadd, run_singleton, hmove, Definition.moveItem_eraseIdx_append hr,
    Definition.withRules_withRules_withRules]

lemma run_replace_replace (hids : (d.rules.map Rule.id).Nodup) {r old : Rule}
    (hold : d.rule? r.id = some old) :
    run d [.replace r, .replace old] = .ok (d.later 2) := by
  obtain ⟨k, hk⟩ := List.mem_iff_getElem?.mp (List.mem_of_find?_eq_some hold)
  obtain ⟨hlt, hget⟩ := List.getElem?_eq_some_iff.mp hk
  have hid : old.id = r.id := by simpa using List.find?_some hold
  have hreplace : apply d (.replace r) = .ok (d.withRules (d.rules.set k r)) :=
    Definition.replaceRule_of_getElem? hids hk hid.symm
  have hreplaced : ((d.rules.set k r).map Rule.id).Nodup := by
    have hplace : k < (d.rules.map Rule.id).length := by simpa using hlt
    rwa [List.map_set, ← hid, ← hget, ← List.getElem_map Rule.id (h := hplace),
      List.set_getElem_self]
  have hback : apply (d.withRules (d.rules.set k r)) (.replace old) =
      .ok ((d.withRules (d.rules.set k r)).withRules ((d.rules.set k r).set k old)) :=
    Definition.replaceRule_of_getElem? hreplaced (List.getElem?_set_self hlt) hid
  rw [run_cons hreplace, run_singleton, hback, List.set_set, ← hget, List.set_getElem_self,
    Definition.withRules_withRules]

/-- Edits of rules with different identities can be undone. A move puts its rule where it should go
and leaves the others in order, and the move back restores the rules. So does removing a rule that
was added, adding a rule that was removed and moving it from the end to where it was, and replacing
a rule by the one that it replaced. What is restored differs from the original by its revision
alone, so it compiles to the same document or fails with the same error. Of all these edits none
touches the points of interest. -/
theorem run_undone (h : (d.rules.map Rule.id).Nodup) :
    (∀ source target, source < d.rules.length → target < d.rules.length →
      ∃ moved, apply d (.move source target) = .ok moved ∧
        moved.rules[target]? = d.rules[source]? ∧
        moved.rules.eraseIdx target = d.rules.eraseIdx source ∧
        run d [.move source target, .move target source] = .ok (d.later 2)) ∧
    (∀ r, r.id ∉ d.rules.map Rule.id → run d [.add r, .remove r.id] = .ok (d.later 2)) ∧
    (∀ k r, d.rules[k]? = some r →
      run d [.remove r.id, .add r, .move (d.rules.length - 1) k] = .ok (d.later 3)) ∧
    (∀ r old, d.rule? r.id = some old → run d [.replace r, .replace old] = .ok (d.later 2)) ∧
    (∀ e edited, e.toggles = [] → apply d e = .ok edited → edited.pois = d.pois) ∧
    ∀ n, (d.later n).rules = d.rules ∧ (d.later n).pois = d.pois ∧
      ∀ c, Renderer.compile c (d.later n) = Renderer.compile c d := by
  refine ⟨?_, fun r hr => run_add_remove h hr, fun k r hr => run_remove_add_move h hr,
    fun r old hold => run_replace_replace h hold, ?_, fun n => ⟨rfl, rfl, fun c => rfl⟩⟩
  · intro source target hsource htarget
    refine ⟨_, Definition.moveRule_eq_ok_iff.mpr ⟨⟨hsource, htarget⟩, rfl⟩, ?_, ?_,
      run_move_move hsource htarget⟩
    · exact Definition.getElem?_moveItem hsource htarget
    · exact Definition.eraseIdx_moveItem hsource
  · intro e edited htoggles happly
    rw [pois_apply happly, htoggles, List.foldl_nil]

theorem run_undone_overlapping : (Renderer.overlappingStyle.rules.map Rule.id).Nodup ∧
    ∃ roads, Renderer.overlappingStyle.rules[0]? = some roads ∧
      run Renderer.overlappingStyle [.remove "roads", .add roads, .move 2 0] =
        .ok (Renderer.overlappingStyle.later 3) ∧
      run Renderer.overlappingStyle [.move 0 2, .move 2 0] =
        .ok (Renderer.overlappingStyle.later 2) := by
  have h : (Renderer.overlappingStyle.rules.map Rule.id).Nodup := by decide
  obtain ⟨hmove, -, hremove, -⟩ := run_undone h
  obtain ⟨_, -, -, -, hmoved⟩ := hmove 0 2 (by decide) (by decide)
  exact ⟨h, _, rfl, hremove 0 _ rfl, hmoved⟩

end Edit

end MapStyle
