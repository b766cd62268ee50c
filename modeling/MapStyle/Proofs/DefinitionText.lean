import MapStyle.Proofs.ColorText
import MapStyle.Proofs.Edits
import MapStyle.Proofs.Expressions
import MapStyle.Proofs.FiniteNumbers

/-!
# Definitions read back from their text

A definition is written with 8 bits for each component of its colors and reads back as the
definition with these colors. What any text gives is sound.
-/

namespace MapStyle

open Json

def Line.rounded (l : Line) : Line :=
  { l with color := l.color.rounded }

def Fill.rounded (f : Fill) : Fill :=
  { f with color := f.color.rounded }

def Treatment.rounded (t : Treatment) : Treatment :=
  ⟨t.line.map Line.rounded, t.fill.map Fill.rounded⟩

def Rule.rounded (r : Rule) : Rule :=
  { r with treatment := r.treatment.rounded }

/-- The definition with each component of its colors rounded to 8 bits and all else the same. -/
def Definition.rounded (d : Definition) : Definition :=
  { d with rules := d.rules.map Rule.rounded }

/-- The doubles in the text of a definition: the widths of lines, and positions. -/
def Definition.doubles (d : Definition) : List Float :=
  (d.rules.filterMap fun r => r.treatment.line.map Line.width) ++
    d.pois.flatMap fun p => [p.position.x, p.position.y]

/-! ### Writing -/

lemma Line.toJson_rounded (l : Line) : l.rounded.toJson = l.toJson := by
  simp [Line.toJson, Line.rounded]

lemma Fill.toJson_rounded (f : Fill) : f.rounded.toJson = f.toJson := by
  simp [Fill.toJson, Fill.rounded]

lemma Rule.toJson_rounded (r : Rule) : r.rounded.toJson = r.toJson := by
  simp [Rule.toJson, Rule.rounded, Treatment.rounded, Function.comp_def, Line.toJson_rounded,
    Fill.toJson_rounded]

lemma Definition.toJson_rounded (d : Definition) : d.rounded.toJson = d.toJson := by
  simp [Definition.toJson, Definition.rounded, Function.comp_def, Rule.toJson_rounded]

/-! ### Decoding -/

lemma float?_ofFloat {x : Float} (h : x.isFinite = true) :
    Tree.float? (.ofJson (.ofFloat x)) = some x := by
  rw [ofFloat, if_pos h]
  rfl

lemma Color.ofTree?_hex (c : Color) : Color.ofTree? (.ofJson (.string c.hex)) = some c.rounded := by
  change (Color.ofCss c.hex).toOption = some c.rounded
  rw [Color.ofCss_hex]
  rfl

def Line.slots (l : Line) : List (String × Option Json) := [
  ("width", some (.ofFloat l.width)),
  ("color", some (.string l.color.hex)),
  ("dashed", some (.bool l.dashed))]

lemma Line.ofTree?_toJson {l : Line} (h : l.width.isFinite = true) :
    Line.ofTree? (.ofJson l.toJson) = some l.rounded := by
  have hslots : l.toJson = .object (present l.slots) := rfl
  have hnames : (l.slots.map Prod.fst).Nodup := by simp [slots]
  rw [hslots, ofTree?, Fields.ofTree?_present _ (by rfl) (by decide)]
  simp only [Option.bind_eq_bind, Option.bind_some]
  rw [Fields.required?_present _ (by rfl) hnames, Fields.required?_present _ (by rfl) hnames,
    Fields.withDefault?_present _ _ (by rfl) hnames, float?_ofFloat h, Color.ofTree?_hex]
  rfl

lemma Fill.ofTree?_toJson (f : Fill) : Fill.ofTree? (.ofJson f.toJson) = some f.rounded := by
  have hslots : f.toJson = .object (present [("color", some (.string f.color.hex))]) := rfl
  rw [hslots, ofTree?, Fields.ofTree?_present _ (by rfl) (by decide)]
  simp only [Option.bind_eq_bind, Option.bind_some]
  rw [Fields.required?_present _ (by rfl) (by simp), Color.ofTree?_hex]
  rfl

lemma Filter.ofTree?_toJson (f : Filter) : Filter.ofTree? (.ofJson f.toJson) = some f := by
  obtain ⟨j, hj⟩ := Tree.exists_value?_ofJson f.toJson
  unfold ofTree?
  rw [hj]
  cases f with
  | keyPresence key => rfl
  | keyValue key value => rfl
  | identity id =>
    have hid : Tree.word? (.ofJson (.ofWord id)) = some id := Text.word?_toInt id
    change (Tree.word? (.ofJson (.ofWord id))).bind (fun i => some (Filter.identity i)) = _
    rw [hid]
    rfl

def Rule.slots (r : Rule) : List (String × Option Json) := [
  ("id", some (.string r.id)),
  ("filter", some r.filter.toJson),
  ("line", r.treatment.line.map Line.toJson),
  ("fill", r.treatment.fill.map Fill.toJson)]

lemma Rule.toJson_eq (r : Rule) : r.toJson = .object (present r.slots) := by
  unfold toJson slots
  cases r.treatment.line <;> cases r.treatment.fill <;> rfl

lemma Rule.ofTree?_toJson {r : Rule}
    (h : ∀ line ∈ r.treatment.line, line.width.isFinite = true) :
    Rule.ofTree? (.ofJson r.toJson) = some r.rounded := by
  have hnames : (r.slots.map Prod.fst).Nodup := by simp [slots]
  have hline : ∀ l ∈ r.treatment.line,
      l.toJson ≠ .null ∧ Line.ofTree? (.ofJson l.toJson) = some l.rounded :=
    fun l hl => ⟨nofun, Line.ofTree?_toJson (h l hl)⟩
  have hfill : ∀ f ∈ r.treatment.fill,
      f.toJson ≠ .null ∧ Fill.ofTree? (.ofJson f.toJson) = some f.rounded :=
    fun f _ => ⟨nofun, f.ofTree?_toJson⟩
  rw [toJson_eq, ofTree?, Fields.ofTree?_present _ (by rfl) (by decide)]
  simp only [Option.bind_eq_bind, Option.bind_some]
  rw [Fields.required?_present _ (by rfl) hnames, Fields.required?_present _ (by rfl) hnames,
    Fields.optional?_present hline (by rfl) hnames, Fields.optional?_present hfill (by rfl) hnames,
    Filter.ofTree?_toJson]
  rfl

def Poi.slots (p : Poi) : List (String × Option Json) := [
  ("id", some (.string p.id)),
  ("position", some (.array [.ofFloat p.position.x, .ofFloat p.position.y])),
  ("text", some (.string p.text)),
  ("sprite", some (.string p.sprite))]

lemma Poi.ofTree?_toJson {p : Poi} (h : p.Located) : Poi.ofTree? (.ofJson p.toJson) = some p := by
  have hslots : p.toJson = .object (present p.slots) := rfl
  have hnames : (p.slots.map Prod.fst).Nodup := by simp [slots]
  have hposition : position? (.ofJson (.array [.ofFloat p.position.x, .ofFloat p.position.y])) =
      some p.position := by
    simp only [Tree.ofJson, Tree.ofItems, position?, float?_ofFloat h.1, float?_ofFloat h.2]
    rfl
  rw [hslots, ofTree?, Fields.ofTree?_present _ (by rfl) (by decide)]
  simp only [Option.bind_eq_bind, Option.bind_some]
  rw [Fields.required?_present _ (by rfl) hnames, Fields.required?_present _ (by rfl) hnames,
    Fields.required?_present _ (by rfl) hnames, Fields.required?_present _ (by rfl) hnames,
    hposition]
  rfl

namespace Definition

def slots (d : Definition) : List (String × Option Json) := [
  ("revision", some (.string d.revision.token)),
  ("rules", some (.array (d.rules.map Rule.toJson))),
  ("savedPOIs", some (.array (d.pois.map Poi.toJson)))]

variable {d : Definition}

/-- The tree of a sound definition decodes to the definition with rounded colors. -/
theorem ofTree?_toJson (h : d.Sound) : ofTree? (.ofJson d.toJson) = some d.rounded := by
  have hslots : d.toJson = .object (present d.slots) := rfl
  have hnames : (d.slots.map Prod.fst).Nodup := by simp [slots]
  have hrules : Tree.list? Rule.ofTree? (.ofJson (.array (d.rules.map Rule.toJson))) =
      some (d.rules.map Rule.rounded) :=
    Tree.list?_ofJson fun r hr => Rule.ofTree?_toJson fun line hline =>
      isFinite_of_validate h.valid hr hline
  have hpois : Tree.list? Poi.ofTree? (.ofJson (.array (d.pois.map Poi.toJson))) =
      some (d.pois.map id) :=
    Tree.list?_ofJson fun p hp => Poi.ofTree?_toJson (h.located p hp)
  rw [hslots, ofTree?, Fields.ofTree?_present _ (by rfl) (by decide)]
  simp only [Option.bind_eq_bind, Option.bind_some]
  rw [Fields.required?_present _ (by rfl) hnames, Fields.required?_present _ (by rfl) hnames,
    Fields.withDefault?_present _ _ (by rfl) hnames, hrules, Option.map_some, Option.getD_some,
    hpois, List.map_id]
  rfl

/-! ### Nesting -/

lemma mem_doubles_of_line {r : Rule} (hr : r ∈ d.rules) {line : Line}
    (hline : line ∈ r.treatment.line) : line.width ∈ d.doubles := by
  apply List.mem_append_left
  exact List.mem_filterMap.mpr ⟨r, hr, by simp [Option.mem_def.mp hline]⟩

lemma mem_doubles_of_poi {p : Poi} (hp : p ∈ d.pois) {x : Float}
    (hx : x ∈ [p.position.x, p.position.y]) : x ∈ d.doubles :=
  List.mem_append_right _ (List.mem_flatMap.mpr ⟨p, hp, hx⟩)

lemma fits_filter (f : Filter) : Fits 1 f.toJson := by
  cases f with
  | keyPresence key => exact .object (by simp [Fits.string])
  | keyValue key value => exact .object (by simp [Fits.string])
  | identity id => exact .object (by simp [Fits.string, (Expression.ofWord id).fits])

lemma fits_line {line : Line} (h : (Number.float line.width).ReadsBack) : Fits 1 line.toJson :=
  .object (by simp [Fits.string, Fits.bool, (Expression.ofFloat h).fits])

lemma fits_rule {r : Rule}
    (h : ∀ line ∈ r.treatment.line, (Number.float line.width).ReadsBack) : Fits 2 r.toJson := by
  have hline : ∀ line ∈ r.treatment.line, Fits 1 line.toJson := fun line hline =>
    fits_line (h line hline)
  have hfill (f : Fill) : Fits 1 f.toJson := .object (by simp [Fits.string])
  rw [Rule.toJson_eq]
  apply fits_present
  simpa [Rule.slots, Fits.string, fits_filter, hfill] using hline

lemma fits_poi {p : Poi} (hx : (Number.float p.position.x).ReadsBack)
    (hy : (Number.float p.position.y).ReadsBack) : Fits 2 p.toJson := by
  have hposition : Fits 1 (.array [.ofFloat p.position.x, .ofFloat p.position.y]) :=
    .array (by simp [(Expression.ofFloat hx).fits, (Expression.ofFloat hy).fits])
  exact .object (by simp [Fits.string, hposition])

lemma fits_toJson (h : ∀ x ∈ d.doubles, (Number.float x).ReadsBack) : Fits 4 d.toJson := by
  have hrules : Fits 3 (.array (d.rules.map Rule.toJson)) := by
    apply Fits.array
    intro j hj
    obtain ⟨r, hr, rfl⟩ := List.mem_map.mp hj
    exact fits_rule fun line hline => h _ (mem_doubles_of_line hr hline)
  have hpois : Fits 3 (.array (d.pois.map Poi.toJson)) := by
    apply Fits.array
    intro j hj
    obtain ⟨p, hp, rfl⟩ := List.mem_map.mp hj
    exact fits_poi (h _ (mem_doubles_of_poi hp (by simp))) (h _ (mem_doubles_of_poi hp (by simp)))
  exact .object (by simp [Fits.string, hrules, hpois])

/-! ### What a text gives -/

lemma finite_ofMembers? {names : List String} {closed : Bool} {members : List (String × Tree)}
    {fields : Fields} (h : Fields.ofMembers? names closed members = some fields)
    (hmembers : ∀ m ∈ members, m.2.Finite) : ∀ f ∈ fields, f.2.Finite := by
  induction members generalizing fields with
  | nil =>
    cases h
    simp
  | cons m members ih =>
    obtain ⟨hm, hmembers⟩ := List.forall_mem_cons.mp hmembers
    rw [Fields.ofMembers?] at h
    simp only [Option.bind_eq_bind, Option.bind_eq_some_iff] at h
    obtain ⟨rest, hrest, h⟩ := h
    have hfinite := ih hrest hmembers
    split at h
    · split at h
      · cases h
      · cases h
        exact List.forall_mem_cons.mpr ⟨hm, hfinite⟩
    · split at h
      · cases h
      · cases h
        exact hfinite

lemma finite_ofTree? {names : List String} {closed : Bool} {t : Tree} {fields : Fields}
    (h : Fields.ofTree? names closed t = some fields) (ht : t.Finite) :
    ∀ f ∈ fields, f.2.Finite := by
  cases ht with
  | object hmembers => exact finite_ofMembers? h hmembers
  | array hitems =>
    rw [Fields.ofTree?] at h
    split at h
    · cases h
      exact fun f hf => hitems f.2 (List.of_mem_zip hf).2
    · cases h
  | _ => cases h

lemma finite_lookup {fields : Fields} (h : ∀ f ∈ fields, f.2.Finite) {name : String} {t : Tree}
    (ht : fields.lookup name = some t) : t.Finite := by
  obtain ⟨_, _, rfl, -⟩ := List.lookup_eq_some_iff.mp ht
  exact h (name, t) (by simp)

lemma isFinite_float? {t : Tree} {x : Float} (h : t.float? = some x) (ht : t.Finite) :
    x.isFinite = true := by
  cases ht with
  | number hn =>
    cases h
    exact hn
  | _ => cases h

lemma located_of_position? {t : Tree} {p : Poi} (h : Poi.position? t = some p.position)
    (ht : t.Finite) : p.Located := by
  unfold Poi.position? at h
  split at h
  · next x y =>
    simp only [Option.bind_eq_bind, Option.bind_eq_some_iff] at h
    obtain ⟨px, hx, py, hy, hposition⟩ := h
    cases ht with
    | array hitems =>
      obtain ⟨hxt, hyt⟩ : x.Finite ∧ y.Finite := by simpa using hitems
      have hpoint : (⟨px, py⟩ : Point Float) = p.position := Option.some.inj hposition
      unfold Poi.Located
      rw [← hpoint]
      exact ⟨isFinite_float? hx hxt, isFinite_float? hy hyt⟩
  · cases h

lemma located_of_ofTree? {t : Tree} {p : Poi} (h : Poi.ofTree? t = some p) (ht : t.Finite) :
    p.Located := by
  unfold Poi.ofTree? at h
  simp only [Option.bind_eq_bind, Option.bind_eq_some_iff, Fields.required?] at h
  obtain ⟨fields, hfields, id, -, position, ⟨u, hu, hposition⟩, text, -, sprite, -, hp⟩ := h
  cases hp
  exact located_of_position? hposition (finite_lookup (finite_ofTree? hfields ht) hu)

lemma located_of_list? {t : Tree} {ps : List Poi} (h : Tree.list? Poi.ofTree? t = some ps)
    (ht : t.Finite) : ∀ p ∈ ps, p.Located := by
  intro p hp
  cases ht with
  | array hitems =>
    obtain ⟨u, hu, hread⟩ := exists_of_mem_mapM h hp
    exact located_of_ofTree? hread (hitems u hu)
  | _ => cases h

/-- What any text gives is valid, and its points of interest have positions. -/
theorem sound_of_ofText {text : String} (h : ofText text = .ok d) : d.Sound := by
  unfold ofText load at h
  split at h
  · cases h
  · next e he =>
    obtain ⟨t, ht, hdecode⟩ := Option.bind_eq_some_iff.mp he
    have hfinite := Tree.finite_of_ofText? ht
    cases hvalid : e.validate with
    | error err => simp [hvalid, Except.map] at h
    | ok u =>
      obtain rfl : e = d := by simpa [hvalid, Except.map] using h
      refine ⟨hvalid, ?_⟩
      unfold ofTree? at hdecode
      simp only [Option.bind_eq_bind, Option.bind_eq_some_iff] at hdecode
      obtain ⟨fields, hfields, token, -, rules, -, pois, hpois, hd⟩ := hdecode
      cases hd
      unfold Fields.withDefault? at hpois
      split at hpois
      · next u hu =>
        exact located_of_list? hpois (finite_lookup (finite_ofTree? hfields hfinite) hu)
      · cases hpois
        simp

end Definition

end MapStyle
