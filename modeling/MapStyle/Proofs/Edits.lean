import MapStyle.Proofs.RendererLayers
import MapStyle.Proofs.Toggles
import Mathlib.Data.List.InsertIdx
import Mathlib.Data.List.Perm.Basic

/-!
# Edits keep definitions valid

A definition is valid if its rules have different identities and lines that can be drawn. Every edit
with such rules keeps it valid, and so does every run of edits, whether it stops at the first edit
that fails or goes on without it.
-/

namespace MapStyle

universe u v w

/-! ### Computations that may fail -/

section Except

variable {ε : Type u} {ε' : Type w} {α β : Type v} {x : Except ε α}

lemma exists_eq_error_iff : (∃ err, x = .error err) ↔ ∀ value, x ≠ .ok value := by
  cases x <;> simp

lemma bind_eq_ok_iff {g : α → Except ε β} {b : β} :
    x >>= g = .ok b ↔ ∃ a, x = .ok a ∧ g a = .ok b := by
  cases x <;> simp [bind, Except.bind]

lemma mapError_eq_ok_iff {g : ε → ε'} {a : α} : x.mapError g = .ok a ↔ x = .ok a := by
  cases x <;> simp [Except.mapError]

/-- A computation of which something is known that only a result has gives a result. -/
lemma exists_ok_of_map_toOption {g : α → β} {b : β} (h : x.toOption.map g = some b) :
    ∃ a, x = .ok a ∧ g a = b := by
  cases x with
  | error err => cases h
  | ok a => exact ⟨a, rfl, Option.some.inj h⟩

end Except

/-! ### Valid definitions -/

/-- Whether the line of a rule, if it has one, can be drawn. -/
def Rule.Drawable (r : Rule) : Prop :=
  ∀ line ∈ r.treatment.line, line.isValid = true

/-- Whether the position of a point of interest is a pair of numbers. -/
def Poi.Located (p : Poi) : Prop :=
  p.position.x.isFinite = true ∧ p.position.y.isFinite = true

namespace Definition

lemma ruleDefect?_eq_none_iff (earlier : List String) (r : Rule) :
    ruleDefect? earlier r = none ↔ r.id ∉ earlier ∧ r.Drawable := by
  unfold ruleDefect? Rule.Drawable
  by_cases hid : r.id ∈ earlier
  · simp [hid]
  · cases r.treatment.line with
    | none => simp [hid]
    | some line => simp [hid]

lemma firstDefect?_eq_none_iff (earlier : List String) (rules : List Rule) :
    firstDefect? earlier rules = none ↔
      (rules.map Rule.id).Nodup ∧ (∀ r ∈ rules, r.id ∉ earlier) ∧ ∀ r ∈ rules, r.Drawable := by
  induction rules generalizing earlier with
  | nil => simp [firstDefect?]
  | cons r rules ih =>
    have hcons : firstDefect? earlier (r :: rules) = none ↔
        ruleDefect? earlier r = none ∧ firstDefect? (r.id :: earlier) rules = none := by
      rw [firstDefect?]
      cases ruleDefect? earlier r <;> simp
    have hlater : (∀ s ∈ rules, s.id ∉ r.id :: earlier) ↔
        r.id ∉ rules.map Rule.id ∧ ∀ s ∈ rules, s.id ∉ earlier := by
      simp [not_or, forall_and]
    rw [hcons, ruleDefect?_eq_none_iff, ih, hlater, List.forall_mem_cons, List.forall_mem_cons,
      List.map_cons, List.nodup_cons]
    tauto

/-- A definition is valid exactly if no identity occurs twice and every line can be drawn. -/
theorem validate_eq_ok_iff (d : Definition) :
    d.validate = .ok () ↔ (d.rules.map Rule.id).Nodup ∧ ∀ r ∈ d.rules, r.Drawable := by
  have hdefect : d.validate = .ok () ↔ firstDefect? [] d.rules = none := by
    unfold validate
    cases firstDefect? [] d.rules <;> simp
  rw [hdefect, firstDefect?_eq_none_iff]
  simp

lemma isFinite_of_validate {d : Definition} (h : d.validate = .ok ()) {r : Rule} (hr : r ∈ d.rules)
    {line : Line} (hline : line ∈ r.treatment.line) : line.width.isFinite = true := by
  have hvalid := ((validate_eq_ok_iff d).mp h).2 r hr line hline
  unfold Line.isValid at hvalid
  exact (Bool.and_eq_true_iff.mp hvalid).1

/-- Whether a definition is valid and its points of interest have positions. -/
structure Sound (d : Definition) : Prop where
  valid : d.validate = .ok ()
  located : ∀ p ∈ d.pois, p.Located

end Definition

/-- An edit of a definition. -/
inductive Edit where
  | add (r : Rule)
  | remove (id : String)
  | replace (r : Rule)
  | move (source target : Nat)
  | toggle (poi : Poi)

namespace Edit

def apply (d : Definition) : Edit → Except StyleError Definition
  | .add r => d.addRule r
  | .remove id => d.removeRule id
  | .replace r => d.replaceRule r
  | .move source target => d.moveRule source target
  | .toggle poi => .ok (d.togglePoi poi)

/-- Whether what an edit brings in may stand in a sound definition. -/
def Sound : Edit → Prop
  | .add r => r.Drawable
  | .replace r => r.Drawable
  | .toggle poi => poi.Located
  | _ => True

/-- Edits in turn; the first one that fails ends the run. -/
def run (d : Definition) (edits : List Edit) : Except StyleError Definition :=
  edits.foldlM apply d

/-- The definition after an edit, which is the same if the edit fails. -/
def attempt (d : Definition) (e : Edit) : Definition :=
  match e.apply d with
  | .ok edited => edited
  | .error _ => d

/-- Edits in turn; those that fail change nothing. -/
def attemptAll (d : Definition) (edits : List Edit) : Definition :=
  edits.foldl attempt d

/-- The rule that an edit brings in. -/
def rule? : Edit → Option Rule
  | .add r => some r
  | .replace r => some r
  | _ => none

/-- The points of interest that an edit toggles. -/
def toggles : Edit → List Poi
  | .toggle poi => [poi]
  | _ => []

/-- Whether a definition does not admit an edit: a new identity is taken, one to remove or replace
is not there, or a position is out of range. -/
def Impossible (d : Definition) : Edit → Prop
  | .add r => r.id ∈ d.rules.map Rule.id
  | .remove id => id ∉ d.rules.map Rule.id
  | .replace r => r.id ∉ d.rules.map Rule.id
  | .move source target => d.rules.length ≤ source ∨ d.rules.length ≤ target
  | .toggle _ => False

end Edit

namespace Definition

variable {d e : Definition}

/-! ### Single edits -/

lemma split_of_indexOf {id : String} {i : Nat} (h : d.indexOf id = .ok i) :
    ∃ before r after, d.rules = before ++ r :: after ∧ before.length = i ∧ r.id = id ∧
      d.rule? id = some r := by
  unfold indexOf at h
  split at h
  · next j hj =>
    cases h
    obtain ⟨hi, hid, hbefore⟩ := List.findIdx?_eq_some_iff_getElem.mp hj
    have hsplit : d.rules = d.rules.take i ++ d.rules[i] :: d.rules.drop (i + 1) := by
      rw [List.getElem_cons_drop, List.take_append_drop]
    have hfirst : ∀ s ∈ d.rules.take i, !(s.id == id) := by
      intro s hs
      obtain ⟨j, hj, rfl⟩ := List.mem_take_iff_getElem.mp hs
      simpa using hbefore j (by omega)
    refine ⟨_, _, _, hsplit, List.length_take_of_le hi.le, by simpa using hid, ?_⟩
    exact List.find?_eq_some_iff_append.mpr ⟨hid, _, _, hsplit, hfirst⟩
  · cases h

lemma indexOf_eq_error_iff {id : String} :
    (∃ err, d.indexOf id = .error err) ↔ id ∉ d.rules.map Rule.id := by
  have hnone : d.rules.findIdx? (·.id == id) = none ↔ id ∉ d.rules.map Rule.id := by
    simp
  rw [← hnone]
  unfold indexOf
  cases d.rules.findIdx? (·.id == id) <;> simp

lemma addRule_eq_ok_iff {r : Rule} :
    d.addRule r = .ok e ↔ r.id ∉ d.rules.map Rule.id ∧ e = d.withRules (d.rules ++ [r]) := by
  have htaken : (d.rule? r.id).isSome = true ↔ r.id ∈ d.rules.map Rule.id := by
    simp [rule?, List.find?_isSome]
  unfold addRule
  split
  · next h => simp [htaken.mp h]
  · next h => simp [htaken.not.mp h, eq_comm]

lemma moveRule_eq_ok_iff {source target : Nat} :
    d.moveRule source target = .ok e ↔
      (source < d.rules.length ∧ target < d.rules.length) ∧
        e = d.withRules (moveItem d.rules source target) := by
  unfold moveRule
  simp only
  split
  · next h => simp [Nat.not_lt.mpr h]
  · next h =>
    split
    · next h' => simp [Nat.not_lt.mpr h']
    · next h' => simp [Nat.not_le.mp h, Nat.not_le.mp h', eq_comm]

lemma addRule_eq_error_iff {r : Rule} :
    (∃ err, d.addRule r = .error err) ↔ r.id ∈ d.rules.map Rule.id := by
  have hok : (∃ edited, d.addRule r = .ok edited) ↔ r.id ∉ d.rules.map Rule.id := by
    simp only [addRule_eq_ok_iff, exists_and_left, exists_eq, and_true]
  rw [exists_eq_error_iff, ← not_exists, hok, not_not]

lemma moveRule_eq_error_iff {source target : Nat} :
    (∃ err, d.moveRule source target = .error err) ↔
      d.rules.length ≤ source ∨ d.rules.length ≤ target := by
  have hok : (∃ edited, d.moveRule source target = .ok edited) ↔
      source < d.rules.length ∧ target < d.rules.length := by
    simp only [moveRule_eq_ok_iff, exists_and_left, exists_eq, and_true]
  rw [exists_eq_error_iff, ← not_exists, hok]
  omega

lemma rules_of_removeRule {id : String} (h : d.removeRule id = .ok e) :
    ∃ before r after, d.rules = before ++ r :: after ∧ d.rule? id = some r ∧
      e = d.withRules (before ++ after) := by
  obtain ⟨i, hindex, hremoved⟩ := bind_eq_ok_iff.mp h
  cases hremoved
  obtain ⟨before, r, after, hrules, rfl, -, hr⟩ := split_of_indexOf hindex
  refine ⟨before, r, after, hrules, hr, ?_⟩
  simp [hrules, List.eraseIdx_append_of_length_le]

lemma rules_of_replaceRule {r : Rule} (h : d.replaceRule r = .ok e) :
    ∃ before old after, d.rules = before ++ old :: after ∧ old.id = r.id ∧
      d.rule? r.id = some old ∧ e = d.withRules (before ++ r :: after) := by
  obtain ⟨i, hindex, hreplaced⟩ := bind_eq_ok_iff.mp h
  cases hreplaced
  obtain ⟨before, old, after, hrules, rfl, hid, hold⟩ := split_of_indexOf hindex
  refine ⟨before, old, after, hrules, hid, hold, ?_⟩
  simp [hrules]

lemma removeRule_eq_error_iff {id : String} :
    (∃ err, d.removeRule id = .error err) ↔ id ∉ d.rules.map Rule.id := by
  rw [← indexOf_eq_error_iff]
  unfold removeRule
  cases d.indexOf id <;> simp [bind, Except.bind, pure, Except.pure]

lemma replaceRule_eq_error_iff {r : Rule} :
    (∃ err, d.replaceRule r = .error err) ↔ r.id ∉ d.rules.map Rule.id := by
  rw [← indexOf_eq_error_iff]
  unfold replaceRule
  cases d.indexOf r.id <;> simp [bind, Except.bind, pure, Except.pure]

lemma perm_moveItem {α : Type} (items : List α) (source : Nat) {target : Nat}
    (htarget : target < items.length) : (moveItem items source target).Perm items := by
  unfold moveItem
  split
  · next item hitem =>
    obtain ⟨hsource, rfl⟩ := List.getElem?_eq_some_iff.mp hitem
    have hlength := List.length_eraseIdx_of_lt hsource
    exact (List.perm_insertIdx _ _ (by omega)).trans (List.getElem_cons_eraseIdx_perm hsource)
  · exact .refl items

end Definition

namespace Edit

variable {d d' : Definition} {e : Edit}

lemma apply_eq_error_iff (d : Definition) (e : Edit) :
    (∃ err, e.apply d = .error err) ↔ e.Impossible d := by
  cases e with
  | add r => exact Definition.addRule_eq_error_iff
  | remove id => exact Definition.removeRule_eq_error_iff
  | replace r => exact Definition.replaceRule_eq_error_iff
  | move source target => exact Definition.moveRule_eq_error_iff
  | toggle poi => simp [apply, Impossible]

lemma validate_apply (h : d.validate = .ok ()) (he : ∀ r ∈ e.rule?, r.Drawable)
    (happly : e.apply d = .ok d') : d'.validate = .ok () := by
  obtain ⟨hids, hlines⟩ := (Definition.validate_eq_ok_iff d).mp h
  rw [Definition.validate_eq_ok_iff]
  cases e with
  | add r =>
    obtain ⟨hnew, rfl⟩ := Definition.addRule_eq_ok_iff.mp happly
    refine ⟨?_, List.forall_mem_append.mpr ⟨hlines, List.forall_mem_singleton.mpr (he r rfl)⟩⟩
    simpa [Definition.withRules, List.nodup_append, hids] using hnew
  | remove id =>
    obtain ⟨before, r, after, hrules, -, rfl⟩ := Definition.rules_of_removeRule happly
    have hsublist : (before ++ after).Sublist d.rules := by
      rw [hrules]
      exact (List.sublist_cons_self r after).append_left before
    exact ⟨(hsublist.map _).nodup hids, fun s hs => hlines s (hsublist.subset hs)⟩
  | replace r =>
    obtain ⟨before, old, after, hrules, hid, -, rfl⟩ := Definition.rules_of_replaceRule happly
    have hsame : (before ++ r :: after).map Rule.id = d.rules.map Rule.id := by
      simp [hrules, hid]
    refine ⟨hsame ▸ hids, ?_⟩
    rw [hrules, List.forall_mem_append, List.forall_mem_cons] at hlines
    exact List.forall_mem_append.mpr
      ⟨hlines.1, List.forall_mem_cons.mpr ⟨he r rfl, hlines.2.2⟩⟩
  | move source target =>
    obtain ⟨⟨-, htarget⟩, rfl⟩ := Definition.moveRule_eq_ok_iff.mp happly
    have hperm := Definition.perm_moveItem d.rules source htarget
    exact ⟨(hperm.map _).nodup_iff.mpr hids, fun r hr => hlines r (hperm.subset hr)⟩
  | toggle poi =>
    cases happly
    exact ⟨hids, hlines⟩

lemma pois_apply (happly : e.apply d = .ok d') :
    d'.pois = e.toggles.foldl Definition.togglePois d.pois := by
  cases e with
  | add r =>
    obtain ⟨-, rfl⟩ := Definition.addRule_eq_ok_iff.mp happly
    rfl
  | remove id =>
    obtain ⟨_, _, _, -, -, rfl⟩ := Definition.rules_of_removeRule happly
    rfl
  | replace r =>
    obtain ⟨_, _, _, -, -, -, rfl⟩ := Definition.rules_of_replaceRule happly
    rfl
  | move source target =>
    obtain ⟨-, rfl⟩ := Definition.moveRule_eq_ok_iff.mp happly
    rfl
  | toggle poi =>
    cases happly
    rfl

lemma sound_apply (h : d.Sound) (he : e.Sound) (happly : e.apply d = .ok d') : d'.Sound := by
  constructor
  · apply validate_apply h.valid _ happly
    intro r hr
    cases e with
    | add s => exact Option.some.inj hr ▸ he
    | replace s => exact Option.some.inj hr ▸ he
    | _ => cases hr
  · rw [pois_apply happly]
    cases e with
    | toggle poi =>
      intro p hp
      rcases Definition.mem_togglePois hp with rfl | hp
      · exact he
      · exact h.located p hp
    | _ => exact h.located

/-! ### Runs of edits -/

/-- What successful edits keep holds after any run of attempts. -/
lemma attemptAll_induction {P : Definition → Prop} {edits : List Edit} (h : P d)
    (hstep : ∀ e ∈ edits, ∀ d d', P d → e.apply d = .ok d' → P d') : P (attemptAll d edits) := by
  unfold attemptAll
  induction edits generalizing d with
  | nil => exact h
  | cons e edits ih =>
    obtain ⟨hfirst, hrest⟩ := List.forall_mem_cons.mp hstep
    refine ih ?_ hrest
    unfold attempt
    split
    · next happly => exact hfirst d _ h happly
    · exact h

lemma attemptAll_of_run {edits : List Edit} (hrun : run d edits = .ok d') :
    attemptAll d edits = d' := by
  induction edits generalizing d with
  | nil =>
    cases hrun
    rfl
  | cons e edits ih =>
    rw [run, List.foldlM_cons] at hrun
    obtain ⟨next, happly, hrest⟩ := bind_eq_ok_iff.mp hrun
    have hattempt : attempt d e = next := by
      rw [attempt, happly]
    rw [attemptAll, List.foldl_cons, hattempt]
    exact ih hrest

/-- A run of edits keeps a definition sound if every edit brings in what may stand in one. -/
theorem sound_run {edits : List Edit} (h : d.Sound) (hedits : ∀ e ∈ edits, e.Sound)
    (hrun : run d edits = .ok d') : d'.Sound := by
  rw [← attemptAll_of_run hrun]
  exact attemptAll_induction h fun e he _ _ hd happly => sound_apply hd (hedits e he) happly

/-- Edits keep a definition valid and its points of interest distinct. Rules that the edits bring in
have to be drawable; edits may fail, which leaves the definition as it is. So what any run of edits
leaves can be compiled, and whether the next edit fails can be read off it. -/
theorem valid_attemptAll (hvalid : d.validate = .ok ()) (hpois : (d.pois.map Poi.id).Nodup)
    {edits : List Edit} (hedits : ∀ e ∈ edits, ∀ r ∈ e.rule?, r.Drawable) :
    (attemptAll d edits).validate = .ok () ∧ ((attemptAll d edits).pois.map Poi.id).Nodup ∧
    (∀ c, ∃ doc, Renderer.compile c (attemptAll d edits) = .ok doc) ∧
    ∀ e : Edit, (∃ err, e.apply (attemptAll d edits) = .error err) ↔
      e.Impossible (attemptAll d edits) := by
  have hkept : (attemptAll d edits).validate = .ok () :=
    attemptAll_induction hvalid fun e he _ _ hd happly => validate_apply hd (hedits e he) happly
  refine ⟨hkept, ?_, ?_, apply_eq_error_iff _⟩
  · apply attemptAll_induction (P := fun d => (d.pois.map Poi.id).Nodup) hpois
    intro e _ d d' hd happly
    rw [pois_apply happly]
    exact Definition.nodup_foldl_togglePois hd e.toggles
  · exact fun c => ⟨_, (Renderer.compile_eq_ok_iff c _ _).mpr ⟨hkept, rfl⟩⟩

/-- A rule that draws paths with a thin line. -/
def pathRule : Rule :=
  (Rule.plain "paths" (.keyValue "highway" "path")).withLine ⟨1.0, .black, false⟩

/-- Edits of the overlapping rules, of which the second fails. -/
def overlappingEdits : List Edit :=
  [.add pathRule, .add pathRule, .move 0 3, .toggle ⟨"7", ⟨13.375, 52.5⟩, "Gate", "monument"⟩,
    .remove "hidden"]

theorem valid_attemptAll_overlapping :
    Renderer.overlappingStyle.validate = .ok () ∧
    (Renderer.overlappingStyle.pois.map Poi.id).Nodup ∧
    (∀ e ∈ overlappingEdits, ∀ r ∈ e.rule?, r.Drawable) ∧
    (attemptAll Renderer.overlappingStyle overlappingEdits).validate = .ok () ∧
    (attemptAll Renderer.overlappingStyle overlappingEdits).rules.map Rule.id =
      ["motorways", "paths", "roads"] ∧
    ∃ err, apply (attemptAll Renderer.overlappingStyle overlappingEdits) (.remove "hidden") =
      .error err := by
  have hvalid : Renderer.overlappingStyle.validate = .ok () := rfl
  have hpois : (Renderer.overlappingStyle.pois.map Poi.id).Nodup := List.nodup_nil
  have hline : pathRule.Drawable := by
    rintro line ⟨rfl⟩
    decide +kernel
  have hedits : ∀ e ∈ overlappingEdits, ∀ r ∈ e.rule?, r.Drawable := by
    simp [overlappingEdits, rule?, hline]
  obtain ⟨hkept, -, -, hfails⟩ := valid_attemptAll hvalid hpois hedits
  have hids : (attemptAll Renderer.overlappingStyle overlappingEdits).rules.map Rule.id =
      ["motorways", "paths", "roads"] := rfl
  refine ⟨hvalid, hpois, hedits, hkept, hids, (hfails (.remove "hidden")).mpr ?_⟩
  rw [Impossible, hids]
  decide

end Edit

end MapStyle
