import MapStyle.Icon
import MapStyle.Proofs.Cuts
import MapStyle.Proofs.DecimalNumbers

/-!
# Declared icon sizes

The size of an icon whose root tag has any attributes. An attribute is found if a space stands
right before its name and no value before it ends like the start of that attribute. Main statement:
lengths that are found give the size, else a view box that is found, and the default size is used
only if neither is found.
-/

namespace MapStyle.Icon

open Text Decimal

/-- The white space of XML. -/
def xmlBlanks : List Char := [' ', '\t', '\r', '\n']

/-- Whether a name has no white space and no character that stands between attributes. -/
def IsName (name : String) : Prop :=
  ∀ c ∈ name.toList, c ∉ ',' :: '"' :: '<' :: '>' :: xmlBlanks

/-- An attribute of a tag with the white space before it. -/
structure Attribute where
  blanks : List Char
  name : String
  value : List Char
  blanks_ne_nil : blanks ≠ [] := by decide
  blanks_subset : blanks ⊆ xmlBlanks := by decide
  isName : IsName name := by simp [IsName, xmlBlanks]
  value_plain : ∀ c ∈ ['"', '<', '>'], c ∉ value := by simp

namespace Attribute

/-- What stands before the value of an attribute. -/
def opening (a : Attribute) : List Char :=
  a.blanks ++ (a.name.toList ++ ['='])

def write (a : Attribute) : List Char :=
  a.opening ++ '"' :: (a.value ++ ['"'])

end Attribute

/-- An SVG text with a root element that has these attributes. -/
def document (before : List Char) (attributes : List Attribute) (body after : List Char) : String :=
  .ofList (before ++ ("<svg".toList ++
    (attributes.flatMap Attribute.write ++ '>' :: (body ++ ("</svg>".toList ++ after)))))

/-- What is searched for to find the attribute of a name, without the opening quote. -/
def lead (name : String) : List Char :=
  ' ' :: (name.toList ++ ['='])

/-- Whether the attribute of a name is found in a tag, with its value. -/
def Finds (attributes : List Attribute) (name : String) (value : List Char) : Prop :=
  ∃ before a after, attributes = before ++ a :: after ∧ a.name = name ∧ a.value = value ∧
    [' '] <:+ a.blanks ∧ ∀ b ∈ before, ¬lead name <:+ b.value

/-- Whether a text is a number, with or without units of pixels after it. -/
def IsLength (text : List Char) (x : Float) : Prop :=
  ∃ number n, Denotes number x ∧ text = number ++ (List.replicate n ['p', 'x']).flatten

def FindsLength (attributes : List Attribute) (name : String) (x : Float) : Prop :=
  ∃ value, Finds attributes name value ∧ IsLength value x

def FindsLengths (attributes : List Attribute) (s : Size Float) : Prop :=
  FindsLength attributes "width" s.width ∧ FindsLength attributes "height" s.height

/-- Whether a text is four numbers between white space and commas, the last two of them a size. -/
def IsBox (text : List Char) (s : Size Float) : Prop :=
  ∃ a b c d x y, words (fun c => c ∈ ',' :: xmlBlanks) text = [a, b, c, d] ∧ Denotes a x ∧
    Denotes b y ∧ Denotes c s.width ∧ Denotes d s.height

/-- The numbers among the words of a view box. -/
def boxNumbers (text : List Char) : List Float :=
  (words (fun c => c == ' ' || c == ',') text).filterMap Decimal.read?

/-- How the size of an icon follows from the attributes of its root tag. -/
structure HasSize (attributes : List Attribute) (size : Size Float) : Prop where
  lengths : ∀ s, FindsLengths attributes s → size = s
  box : (∀ s, ¬FindsLengths attributes s) → ∀ value s, Finds attributes "viewBox" value →
    IsBox value s → (∀ c ∈ ['\t', '\r', '\n'], c ∉ value) → size = s
  default : (∀ s, ¬FindsLengths attributes s) →
    (∀ value, Finds attributes "viewBox" value → (boxNumbers value).length ≠ 4) →
      size = ⟨defaultSide, defaultSide⟩

/-! ### Finding attributes -/

variable {a : Attribute} {attributes : List Attribute} {name : String} {value text : List Char}

lemma IsName.not_mem (h : IsName name) {c : Char} (hc : c ∈ ',' :: '"' :: '<' :: '>' :: xmlBlanks) :
    c ∉ name.toList := fun hmem => h c hmem hc

namespace Attribute

lemma not_mem_opening (a : Attribute) {c : Char} (hc : c ∈ [',', '"', '<', '>']) :
    c ∉ a.opening := by
  have hblank : ∀ c ∈ [',', '"', '<', '>'], c ∉ xmlBlanks ∧ c ≠ '=' := by simp [xmlBlanks]
  have hname := a.isName.not_mem (List.mem_append_left xmlBlanks hc)
  have hsub := mt (@a.blanks_subset c) (hblank c hc).1
  simp [opening, hname, hsub, (hblank c hc).2]

lemma not_mem_write (a : Attribute) {c : Char} (hc : c ∈ ['<', '>']) : c ∉ a.write := by
  have hquote : ∀ c ∈ ['<', '>'], c ≠ '"' := by simp
  have hopening : c ∉ a.opening := a.not_mem_opening (.tail _ (.tail _ hc))
  have hvalue : c ∉ a.value := a.value_plain c (.tail _ hc)
  simp [write, hopening, hvalue, hquote c hc]

lemma write_append (a : Attribute) (tail : List Char) :
    a.write ++ tail = a.opening ++ '"' :: (a.value ++ '"' :: tail) := by
  simp [write]

end Attribute

lemma attribute?_eq (tag : List Char) (name : String) :
    attribute? tag name = ((cutFirst? (lead name ++ ['"']) tag).map Prod.snd).bind fun rest =>
      (cutFirst? ['"'] rest).map Prod.fst := by
  have hmark : ' ' :: name.toList ++ ['=', '"'] = lead name ++ ['"'] := by simp [lead]
  rw [attribute?, hmark]
  cases cutFirst? (lead name ++ ['"']) tag with
  | none => rfl
  | some parts =>
    simp only [Option.bind_eq_bind, Option.bind_some, Option.map_eq_bind]
    rfl

lemma lead_suffix_opening_iff (hname : IsName name) (a : Attribute) :
    lead name <:+ a.opening ↔ a.name = name ∧ [' '] <:+ a.blanks := by
  constructor
  · rintro ⟨head, hhead⟩
    have hsame : head ++ ' ' :: name.toList = a.blanks ++ a.name.toList := by
      have hends : (head ++ ' ' :: name.toList) ++ ['='] =
          (a.blanks ++ a.name.toList) ++ ['='] := by
        simpa [lead, Attribute.opening] using hhead
      exact List.append_cancel_right hends
    have hspace : ' ' ∉ a.name.toList := a.isName.not_mem (by decide)
    -- The space of the lead is the last of the blanks, as neither name has white space.
    obtain ⟨more, hblanks, hmore⟩ | ⟨more, -, hmore⟩ := List.append_eq_append_iff.mp hsame
    · cases more with
      | nil => exact absurd (by simp [← hmore.trans (List.nil_append _)]) hspace
      | cons c more =>
        obtain ⟨rfl, hrest⟩ := List.cons.inj hmore
        cases more with
        | nil => exact ⟨String.toList_injective hrest.symm, head, hblanks.symm⟩
        | cons c more =>
          have hblank : c ∈ xmlBlanks := a.blanks_subset (by simp [hblanks])
          have hfree := hname.not_mem (List.mem_append_right [',', '"', '<', '>'] hblank)
          exact absurd (by simp [hrest]) hfree
    · exact absurd (by simp [hmore]) hspace
  · rintro ⟨rfl, blanks, hblanks⟩
    exact ⟨blanks, by simp [lead, Attribute.opening, ← hblanks]⟩

lemma attribute?_write (hname : IsName name) (a : Attribute) (tail : List Char) :
    attribute? (a.write ++ tail) name =
      if a.name = name ∧ [' '] <:+ a.blanks then some a.value
      else if lead name <:+ a.value then (cutFirst? ['"'] tail).map Prod.fst
      else attribute? tail name := by
  have hlead : '"' ∉ lead name := by
    simp [lead, hname.not_mem (c := '"') (by simp)]
  have hvalue : '"' ∉ a.value := a.value_plain _ (.head _)
  rw [attribute?_eq, a.write_append, cutFirst?_stop hlead (a.not_mem_opening (by simp)),
    cutFirst?_stop hlead hvalue, attribute?_eq]
  simp only [lead_suffix_opening_iff hname]
  split
  · simp [cutFirst?_char hvalue]
  · split <;> rfl

lemma attribute?_of_finds (hname : IsName name) (hnames : (attributes.map Attribute.name).Nodup)
    (h : Finds attributes name value) :
    attribute? (attributes.flatMap Attribute.write) name = some value := by
  obtain ⟨before, a, after, rfl, rfl, rfl, hspace, hbefore⟩ := h
  induction before with
  | nil =>
    rw [List.nil_append, List.flatMap_cons, attribute?_write hname, if_pos ⟨rfl, hspace⟩]
  | cons b before ih =>
    obtain ⟨hb, hbefore⟩ := List.forall_mem_cons.mp hbefore
    rw [List.cons_append, List.map_cons, List.nodup_cons] at hnames
    have hother : b.name ≠ a.name := fun heq => hnames.1 (by simp [heq])
    rw [List.cons_append, List.flatMap_cons, attribute?_write hname, if_neg fun h => hother h.1,
      if_neg hb, ih hnames.2 hbefore]

lemma finds_cons (h : Finds attributes name value) (halike : ¬lead name <:+ a.value) :
    Finds (a :: attributes) name value := by
  obtain ⟨before, b, after, rfl, hb⟩ := h
  exact ⟨a :: before, b, after, rfl, hb.1, hb.2.1, hb.2.2.1,
    List.forall_mem_cons.mpr ⟨halike, hb.2.2.2⟩⟩

lemma attribute?_of_not_finds (hname : IsName name) (h : ∀ value, ¬Finds attributes name value)
    (htext : attribute? (attributes.flatMap Attribute.write) name = some text) :
    ∃ a : Attribute, text = a.opening := by
  induction attributes with
  | nil => exact absurd htext (by simp [attribute?_eq, lead, cutFirst?])
  | cons a attributes ih =>
    have hhere : ¬(a.name = name ∧ [' '] <:+ a.blanks) := fun hhere =>
      h a.value ⟨[], a, attributes, rfl, hhere.1, rfl, hhere.2, by simp⟩
    rw [List.flatMap_cons, attribute?_write hname, if_neg hhere] at htext
    split at htext
    -- The value of `a` ends like the start of the attribute, so the text after it is taken.
    · cases attributes with
      | nil => exact absurd htext (by simp [cutFirst?])
      | cons b attributes =>
        rw [List.flatMap_cons, b.write_append,
          cutFirst?_char (b.not_mem_opening (by simp))] at htext
        exact ⟨b, (Option.some.inj htext).symm⟩
    · next halike => exact ih (fun value hvalue => h value (finds_cons hvalue halike)) htext

/-- What is taken for a value is that of an attribute that is found, or no value at all. -/
lemma finds_or_opening (hname : IsName name) (hnames : (attributes.map Attribute.name).Nodup)
    (htext : attribute? (attributes.flatMap Attribute.write) name = some text) :
    Finds attributes name text ∨ ∃ a : Attribute, text = a.opening := by
  by_cases hfinds : ∃ value, Finds attributes name value
  · obtain ⟨value, hvalue⟩ := hfinds
    obtain rfl := Option.some.inj ((attribute?_of_finds hname hnames hvalue).symm.trans htext)
    exact .inl hvalue
  · exact .inr (attribute?_of_not_finds hname (not_exists.mp hfinds) htext)

/-! ### Lengths -/

lemma dropUnits_units (n : Nat) (text : List Char) :
    dropUnits ((List.replicate n ['x', 'p']).flatten ++ text) = dropUnits text := by
  induction n with
  | zero => rfl
  | succ n ih => exact ih

lemma exists_eq_units (text : List Char) :
    ∃ n, text = (List.replicate n ['x', 'p']).flatten ++ dropUnits text := by
  fun_induction dropUnits text with
  | case1 rest ih =>
    obtain ⟨n, hn⟩ := ih
    exact ⟨n + 1, congrArg (['x', 'p'] ++ ·) hn⟩
  | case2 text => exact ⟨0, rfl⟩

lemma reverse_units (n : Nat) :
    (List.replicate n ['p', 'x']).flatten.reverse = (List.replicate n ['x', 'p']).flatten := by
  simp [List.reverse_flatten]

lemma dropUnits_reverse_of_denotes {number : List Char} {x : Float} (h : Denotes number x) :
    dropUnits number.reverse = number.reverse := by
  refine dropUnits.eq_2 _ fun rest hrest => ?_
  have hmem : 'x' ∈ number := List.mem_reverse.mp (by simp [hrest])
  exact absurd (h.mem hmem) (by simp [marks])

lemma length?_eq_some_iff {x : Float} : length? text = some x ↔ IsLength text x := by
  rw [length?, read?_eq_some_iff]
  constructor
  · intro h
    obtain ⟨n, hn⟩ := exists_eq_units text.reverse
    refine ⟨_, n, h, ?_⟩
    rw [← reverse_units] at hn
    exact (List.reverse_eq_iff.mp hn).trans (by rw [List.reverse_append, List.reverse_reverse])
  · rintro ⟨number, n, h, rfl⟩
    rwa [List.reverse_append, reverse_units, dropUnits_units, dropUnits_reverse_of_denotes h,
      List.reverse_reverse]

/-- The characters of an opening that are in no number. -/
lemma not_denotes_of_mem {x : Float} {c : Char} (hc : c ∈ text)
    (hmark : c ∈ ['\t', '\r', '\n', '=']) : ¬Denotes text x := by
  intro h
  have hnone : ∀ c ∈ ['\t', '\r', '\n', '='], ¬(c.isDigit = true ∨ c.toLower ∈ marks) := by
    simp [marks]
  exact hnone c hmark (h.mem hc)

lemma not_isLength_opening (a : Attribute) (x : Float) : ¬IsLength a.opening x := by
  rintro ⟨number, n, h, htext⟩
  have hmem : '=' ∈ a.opening := by simp [Attribute.opening]
  rw [htext, List.mem_append] at hmem
  obtain hnumber | hunits := hmem
  · exact not_denotes_of_mem hnumber (by simp) h
  · obtain ⟨units, hmem, hunits⟩ := List.mem_flatten.mp hunits
    rw [(List.mem_replicate.mp hmem).2] at hunits
    exact absurd hunits (by decide)

lemma findsLength_iff (hname : IsName name) (hnames : (attributes.map Attribute.name).Nodup)
    {x : Float} :
    (attribute? (attributes.flatMap Attribute.write) name).bind length? = some x ↔
      FindsLength attributes name x := by
  simp only [Option.bind_eq_some_iff, length?_eq_some_iff]
  constructor
  · rintro ⟨text, htext, hlength⟩
    obtain hvalue | ⟨a, rfl⟩ := finds_or_opening hname hnames htext
    · exact ⟨text, hvalue, hlength⟩
    · exact absurd hlength (not_isLength_opening a x)
  · rintro ⟨value, hvalue, hlength⟩
    exact ⟨value, attribute?_of_finds hname hnames hvalue, hlength⟩

/-! ### View boxes -/

lemma fields_congr {p q : Char → Bool} (h : ∀ c ∈ text, p c = q c) :
    fields p text = fields q text := by
  induction text with
  | nil => rfl
  | cons c text ih =>
    obtain ⟨hc, htext⟩ := List.forall_mem_cons.mp h
    rw [fields, fields, hc, ih htext]

lemma fields_eq_singleton {p : Char → Bool} (h : ∀ c ∈ text, p c = false) :
    fields p text = [text] := by
  induction text with
  | nil => rfl
  | cons c text ih =>
    obtain ⟨hc, htext⟩ := List.forall_mem_cons.mp h
    rw [fields, hc, ih htext]
    rfl

lemma forall_mem_fields_append {p : Char → Bool} {P : List Char → Prop} {before rest : List Char}
    (hnil : P []) (hcons : ∀ c ∈ before, p c = false → ∀ word, P (c :: word))
    (hrest : ∀ word ∈ fields p rest, P word) : ∀ word ∈ fields p (before ++ rest), P word := by
  induction before with
  | nil => exact hrest
  | cons c before ih =>
    obtain ⟨hc, hbefore⟩ := List.forall_mem_cons.mp hcons
    have htail := ih hbefore
    rw [List.cons_append, fields]
    split
    · exact List.forall_mem_cons.mpr ⟨hnil, htail⟩
    · next hword =>
      have hhere := hc (by simpa using hword)
      split
      · simpa using hhere []
      · next word words heq =>
        rw [heq] at htail
        exact List.forall_mem_cons.mpr ⟨hhere word, (List.forall_mem_cons.mp htail).2⟩

lemma boxNumbers_of_isBox {s : Size Float} (h : IsBox text s)
    (hplain : ∀ c ∈ ['\t', '\r', '\n'], c ∉ text) :
    ∃ x y, boxNumbers text = [x, y, s.width, s.height] := by
  obtain ⟨a, b, c, d, x, y, hwords, ha, hb, hc, hd⟩ := h
  have hsame : ∀ c ∈ text, (c == ' ' || c == ',') = decide (c ∈ ',' :: xmlBlanks) := by
    intro c hc
    have hfree : ∀ d ∈ ['\t', '\r', '\n'], c ≠ d := fun d hd heq => hplain d hd (heq ▸ hc)
    simp only [List.forall_mem_cons] at hfree
    simp [xmlBlanks, hfree, or_comm, beq_eq_decide]
  refine ⟨x, y, ?_⟩
  rw [boxNumbers, words, fields_congr hsame, ← words, hwords]
  simp [read?_eq_some_iff.mpr ha, read?_eq_some_iff.mpr hb, read?_eq_some_iff.mpr hc,
    read?_eq_some_iff.mpr hd]

/-- No word of an opening is a number: it has other white space than a space, or an equals sign. -/
lemma boxNumbers_opening (a : Attribute) : boxNumbers a.opening = [] := by
  have hall : ∀ word ∈ fields (fun c => c == ' ' || c == ',') a.opening,
      word = [] ∨ ∃ c ∈ word, c ∈ ['\t', '\r', '\n', '='] := by
    refine forall_mem_fields_append (.inl rfl) (fun c hc hword word => .inr ⟨c, .head _, ?_⟩) ?_
    · have hblank := a.blanks_subset hc
      simp only [xmlBlanks, List.mem_cons, List.not_mem_nil, or_false, Bool.or_eq_false_iff,
        beq_eq_false_iff_ne] at hblank hword ⊢
      tauto
    · have hspace := a.isName.not_mem (c := ' ') (by decide)
      have hcomma := a.isName.not_mem (c := ',') (by decide)
      rw [fields_eq_singleton fun c hc => ?_]
      · exact fun word hword => .inr ⟨'=', by simp [List.mem_singleton.mp hword], by simp⟩
      · obtain hname | rfl := List.mem_append.mp hc |>.imp_right List.mem_singleton.mp
        · have hne : c ≠ ' ' ∧ c ≠ ',' := by
            constructor <;> rintro rfl <;> contradiction
          simpa using hne
        · rfl
  rw [boxNumbers, List.filterMap_eq_nil_iff]
  intro word hword
  rw [words, List.mem_filter] at hword
  obtain hnil | ⟨c, hc, hmark⟩ := hall word hword.1
  · simp [hnil] at hword
  · exact Option.eq_none_iff_forall_ne_some.mpr fun x hx =>
      not_denotes_of_mem hc hmark (read?_eq_some_iff.mp hx)

lemma viewBoxSize?_of_length_ne (h : (boxNumbers text).length ≠ 4) : viewBoxSize? text = none := by
  rw [viewBoxSize?, ← boxNumbers]
  split
  · next heq => exact absurd (by simp [heq]) h
  · rfl

lemma viewBoxSize?_of_isBox {s : Size Float} (h : IsBox text s)
    (hplain : ∀ c ∈ ['\t', '\r', '\n'], c ∉ text) : viewBoxSize? text = some s := by
  obtain ⟨x, y, hnumbers⟩ := boxNumbers_of_isBox h hplain
  rw [viewBoxSize?, ← boxNumbers, hnumbers]

/-! ### Documents -/

lemma isName_sizes : ∀ name ∈ ["width", "height", "viewBox"], IsName name := by
  simp [IsName, xmlBlanks]

lemma toList_document (before : List Char) (attributes : List Attribute) (body after : List Char) :
    (document before attributes body after).toList = before ++ ("<svg".toList ++
      (attributes.flatMap Attribute.write ++ '>' :: (body ++ ("</svg>".toList ++ after)))) :=
  String.toList_ofList

lemma attribute?_tag (attributes : List Attribute) (name : String) :
    attribute? ("<svg".toList ++ attributes.flatMap Attribute.write) name =
      attribute? (attributes.flatMap Attribute.write) name := by
  have hspace : ' ' ∉ "<svg".toList := by decide
  rw [attribute?_eq, attribute?_eq, lead, List.cons_append, cutFirst?_append hspace, Option.map_map]
  rfl

lemma getLast?_tag (attributes : List Attribute) :
    ("<svg".toList ++ attributes.flatMap Attribute.write).getLast? ≠ some '/' := by
  obtain rfl | ⟨attributes, a, rfl⟩ := attributes.eq_nil_or_concat
  · simp
  · have hquote : "<svg".toList ++ (attributes.concat a).flatMap Attribute.write =
        "<svg".toList ++ (attributes.flatMap Attribute.write ++ (a.opening ++ '"' :: a.value)) ++
          ['"'] := by
      simp [Attribute.write]
    rw [hquote, List.getLast?_concat]
    decide

lemma declaredSize?_eq_some_iff (hnames : (attributes.map Attribute.name).Nodup) {s : Size Float} :
    declaredSize? ("<svg".toList ++ attributes.flatMap Attribute.write) = some s ↔
      FindsLengths attributes s := by
  have hwidth := isName_sizes "width" (by simp)
  have hheight := isName_sizes "height" (by simp)
  rw [FindsLengths, ← findsLength_iff hwidth hnames, ← findsLength_iff hheight hnames,
    declaredSize?, attribute?_tag, attribute?_tag]
  simp only [Option.bind_eq_bind, Option.bind_eq_some_iff, Option.pure_def, Option.some.injEq]
  constructor
  · rintro ⟨width, hwidth, height, hheight, rfl⟩
    exact ⟨hwidth, hheight⟩
  · rintro ⟨hwidth, hheight⟩
    exact ⟨s.width, hwidth, s.height, hheight, rfl⟩

lemma hasSize_rootSize (hnames : (attributes.map Attribute.name).Nodup) :
    HasSize attributes (rootSize ("<svg".toList ++ attributes.flatMap Attribute.write)) := by
  have hviewBox := isName_sizes "viewBox" (by simp)
  have hnone : (∀ s, ¬FindsLengths attributes s) →
      declaredSize? ("<svg".toList ++ attributes.flatMap Attribute.write) = none := fun h =>
    Option.eq_none_iff_forall_ne_some.mpr fun s hs => h s ((declaredSize?_eq_some_iff hnames).mp hs)
  constructor
  case lengths =>
    intro s hs
    rw [rootSize, (declaredSize?_eq_some_iff hnames).mpr hs]
    rfl
  case box =>
    intro hlengths value s hvalue hbox hplain
    rw [rootSize, hnone hlengths, attribute?_tag, attribute?_of_finds hviewBox hnames hvalue,
      Option.bind_some, viewBoxSize?_of_isBox hbox hplain]
    rfl
  case default =>
    intro hlengths hbox
    have hunread : (attribute? (attributes.flatMap Attribute.write) "viewBox").bind viewBoxSize? =
        none := by
      rw [Option.bind_eq_none_iff]
      intro text htext
      refine viewBoxSize?_of_length_ne ?_
      obtain hvalue | ⟨a, rfl⟩ := finds_or_opening hviewBox hnames htext
      · exact hbox text hvalue
      · simp [boxNumbers_opening]
    rw [rootSize, hnone hlengths, attribute?_tag, hunread]
    rfl

/-- The icon of an SVG text with one root element is the trimmed inside of that element, in the size
that the attributes of the element give. -/
theorem ofSvg?_document (hnames : (attributes.map Attribute.name).Nodup)
    {before body after : List Char} (hbefore : ¬"<svg".toList <:+: before)
    (hafter : ¬"</svg>".toList <:+: after) :
    ∃ icon, ofSvg? (document before attributes body after) = some icon ∧
      icon.markup = String.ofList (trim body) ∧ HasSize attributes icon.size := by
  have hstart : ∀ rest, cutFirst? "<svg".toList (before ++ ("<svg".toList ++ rest)) =
      some (before, rest) :=
    cutFirst?_of_absent (by decide : '<' ∉ "svg".toList) hbefore
  have hend : ∀ body, cutLast? "</svg>".toList (body ++ ("</svg>".toList ++ after)) =
      some (body, after) :=
    cutLast?_of_absent (by decide : '<' ∉ "/svg>".toList) hafter
  have hclose : '>' ∉ attributes.flatMap Attribute.write := by
    simp only [List.mem_flatMap, not_exists, not_and]
    exact fun a _ => a.not_mem_write (by simp)
  refine ⟨⟨rootSize ("<svg".toList ++ attributes.flatMap Attribute.write),
    String.ofList (trim body)⟩, ?_, rfl, hasSize_rootSize hnames⟩
  rw [ofSvg?, toList_document, hstart]
  simp only [Option.bind_eq_bind, Option.bind_some, cutFirst?_char hclose]
  rw [if_neg (getLast?_tag attributes), hend]
  rfl

/-- A root tag with a name and a value that look like the start of another attribute. -/
def strokedIcon : List Attribute := [
  .mk [' '] "id" " width".toList, .mk ['\n', ' '] "stroke-width" "2".toList,
  .mk ['\n', ' '] "width" "15px".toList, .mk [' '] "height" "20".toList
]

theorem ofSvg?_strokedIcon :
    (strokedIcon.map Attribute.name).Nodup ∧ ¬"<svg".toList <:+: "<!-- s -->".toList ∧
    ¬"</svg>".toList <:+: ['\n'] ∧
    ∃ icon, ofSvg? (document "<!-- s -->".toList strokedIcon "<g/>\n".toList ['\n']) = some icon ∧
      icon.markup = String.ofList (trim "<g/>\n".toList) ∧ icon.size = ⟨15, 20⟩ := by
  have hnames : (strokedIcon.map Attribute.name).Nodup := by decide
  have hbefore : ¬"<svg".toList <:+: "<!-- s -->".toList := by decide
  have hafter : ¬"</svg>".toList <:+: ['\n'] := by decide
  have hwidth : FindsLength strokedIcon "width" 15 := by
    refine ⟨_, ⟨strokedIcon.take 2, _, _, rfl, rfl, rfl, by decide, ?_⟩, "15".toList, 1, ?_, rfl⟩
    · decide
    · exact denotes_digits (by decide) (by decide)
  have hheight : FindsLength strokedIcon "height" 20 := by
    refine ⟨_, ⟨strokedIcon.take 3, _, _, rfl, rfl, rfl, by decide, ?_⟩, "20".toList, 0, ?_, rfl⟩
    · decide
    · exact denotes_digits (by decide) (by decide)
  obtain ⟨icon, hicon, hmarkup, hsize⟩ := ofSvg?_document hnames hbefore hafter
  exact ⟨hnames, hbefore, hafter, icon, hicon, hmarkup, hsize.lengths ⟨15, 20⟩ ⟨hwidth, hheight⟩⟩

/-- A root tag with a tab before an attribute. -/
def tabbedIcon : List Attribute := [.mk ['\t'] "width" ['5'], .mk [' '] "height" ['6']]

/-- The attribute after the tab is not found, so the declared size gives way to the default one. -/
theorem ofSvg?_tabbedIcon :
    document [] tabbedIcon ['x'] [] = "<svg\twidth=\"5\" height=\"6\">x</svg>" ∧
    (tabbedIcon.map Attribute.name).Nodup ∧
    (∃ a ∈ tabbedIcon, a.name = "width" ∧ IsLength a.value 5) ∧
    (∃ a ∈ tabbedIcon, a.name = "height" ∧ IsLength a.value 6) ∧
    declaredSize? ("<svg".toList ++ tabbedIcon.flatMap Attribute.write) = none ∧
    ofSvg? (document [] tabbedIcon ['x'] []) = some ⟨⟨defaultSide, defaultSide⟩, "x"⟩ := by
  have hwidth : IsLength ['5'] 5 := ⟨['5'], 0, denotes_digits (by decide) (by decide), rfl⟩
  have hheight : IsLength ['6'] 6 := ⟨['6'], 0, denotes_digits (by decide) (by decide), rfl⟩
  refine ⟨rfl, by decide, ⟨_, .head _, rfl, hwidth⟩, ⟨_, .tail _ (.head _), rfl, hheight⟩, rfl, ?_⟩
  rw [ofSvg?, toList_document]
  rfl

end MapStyle.Icon
