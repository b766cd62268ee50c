import MapStyle.Export
import MapStyle.Proofs.Suggestions
import Mathlib.Data.List.Induction
import Mathlib.Data.List.Sort

/-!
# Listings of an icon directory

A directory is listed in any order, and of several files with one sprite name the last one listed
counts. Two files with one sprite name differ in the ending `-15` only, so the order matters exactly
if there is a file with the ending and one without, and their icons differ.
-/

namespace MapStyle

universe u

/-! ### Dictionaries made of pairs -/

namespace Dictionary

variable {β : Type u}

/-- The values that pairs bind to a key, in order. -/
def bindings (key : String) (pairs : List (String × β)) : List β :=
  pairs.filterMap fun p => if p.1 = key then some p.2 else none

lemma mem_bindings_iff {key : String} {pairs : List (String × β)} {value : β} :
    value ∈ bindings key pairs ↔ (key, value) ∈ pairs := by
  simp [bindings]

/-- Of the values for a key the last one stays. -/
lemma find?_ofList (pairs : List (String × β)) (key : String) :
    (ofList pairs).find? key = (bindings key pairs).getLast? := by
  induction pairs using List.reverseRecOn with
  | nil => rfl
  | append_singleton pairs p ih =>
    have hinsert : ofList (pairs ++ [p]) = (ofList pairs).insert p.1 p.2 := by
      rw [ofList, List.foldl_append]
      rfl
    rw [hinsert, find?_insert, ih, bindings, bindings, List.filterMap_append]
    by_cases hkey : p.1 = key
    · simp [hkey]
    · simp [hkey, Ne.symm hkey]

lemma ext_find? {d e : Dictionary β} (h : ∀ key, d.find? key = e.find? key) : d = e := by
  have hnodup : ∀ c : Dictionary β, c.entries.Nodup := by
    intro c
    refine c.sorted.imp ?_
    rintro p _ hlt rfl
    exact String.lt_irrefl _ hlt
  have hmem : ∀ p, p ∈ d.entries ↔ p ∈ e.entries := by
    intro p
    constructor
    · intro hp
      exact mem_of_find? (h p.1 ▸ find?_of_mem hp)
    · intro hp
      exact mem_of_find? ((h p.1).symm ▸ find?_of_mem hp)
  refine ext_entries (List.Perm.eq_of_pairwise ?_ d.sorted e.sorted
    ((List.perm_ext_iff_of_nodup (hnodup d) (hnodup e)).mpr hmem))
  intro p q _ _ hpq hqp
  exact absurd (String.lt_trans hpq hqp) (String.lt_irrefl _)

end Dictionary

/-! ### Files -/

open IconAtlas

namespace DirectoryEntry

/-- The icon of a file with its sprite name. -/
def icon? (e : DirectoryEntry) : Option (String × Icon) := do
  let stem ← stem? e.name
  let text ← e.content.bind String.fromUTF8?
  let icon ← Icon.ofSvg? text
  return (spriteName stem, icon)

/-- Whether an entry can be read as a text, if it is named like an icon. -/
def IsReadable (e : DirectoryEntry) : Prop :=
  (stem? e.name).isSome = true → (e.content.bind String.fromUTF8?).isSome = true

end DirectoryEntry

namespace IconAtlas

lemma stripEnding?_eq_some_iff {ending : String} {text rest : List Char} :
    stripEnding? ending text = some rest ↔ text = rest ++ ending.toList := by
  have hlength : ∀ before : List Char,
      (before ++ ending.toList).take ((before ++ ending.toList).length - ending.length) =
        before := by
    intro before
    rw [← String.length_toList, List.length_append, Nat.add_sub_cancel, List.take_left]
  unfold stripEnding?
  rw [Option.ite_none_right_eq_some, List.isSuffixOf_iff_suffix, Option.some.injEq]
  constructor
  · rintro ⟨⟨before, rfl⟩, hrest⟩
    rw [← hrest, hlength]
  · rintro rfl
    exact ⟨List.suffix_append _ _, hlength rest⟩

/-- The name of a file with an icon: the sprite name, with or without its size. -/
lemma name_of_icon? {e : DirectoryEntry} {name : String} {icon : Icon}
    (h : e.icon? = some (name, icon)) : e.name = name ++ ".svg" ∨ e.name = name ++ "-15.svg" := by
  obtain ⟨stem, hstem, h⟩ := Option.bind_eq_some_iff.mp h
  obtain ⟨_, -, h⟩ := Option.bind_eq_some_iff.mp h
  obtain ⟨_, -, h⟩ := Option.bind_eq_some_iff.mp h
  obtain ⟨rfl, rfl⟩ := Prod.mk.inj (Option.some.inj h)
  have hname : e.name.toList = stem ++ ".svg".toList := by
    unfold stem? at hstem
    split at hstem
    · cases hstem
    · exact stripEnding?_eq_some_iff.mp hstem
  unfold spriteName
  cases hsize : stripEnding? "-15" stem with
  | none =>
    left
    apply String.toList_injective
    rw [hname]
    simp
  | some rest =>
    right
    apply String.toList_injective
    rw [hname, stripEnding?_eq_some_iff.mp hsize]
    simp

variable {path : String} {entries order : List DirectoryEntry}

lemma addEntry_of_isReadable {e : DirectoryEntry} (h : e.IsReadable) (atlas : IconAtlas) :
    addEntry path atlas e = .ok (e.icon?.elim atlas fun p => atlas.insert p.1 p.2) := by
  unfold addEntry DirectoryEntry.icon?
  cases hstem : stem? e.name with
  | none => rfl
  | some stem =>
    have hread := h (Option.isSome_iff_exists.mpr ⟨_, hstem⟩)
    obtain ⟨text, htext⟩ := Option.isSome_iff_exists.mp hread
    simp only [htext, Option.bind_eq_bind, Option.bind_some]
    cases Icon.ofSvg? text <;> rfl

lemma foldlM_addEntry (h : ∀ e ∈ entries, e.IsReadable) (atlas : IconAtlas) :
    entries.foldlM (addEntry path) atlas =
      .ok ((entries.filterMap DirectoryEntry.icon?).foldl (fun d p => d.insert p.1 p.2) atlas) := by
  induction entries generalizing atlas with
  | nil => rfl
  | cons e entries ih =>
    obtain ⟨he, hentries⟩ := List.forall_mem_cons.mp h
    rw [List.foldlM_cons, addEntry_of_isReadable he, List.filterMap_cons]
    cases e.icon? with
    | none => exact ih hentries atlas
    | some p => exact ih hentries (atlas.insert p.1 p.2)

lemma load_eq_ok (path : String) (h : ∀ e ∈ entries, e.IsReadable) :
    load path (some entries) = .ok (Dictionary.ofList (entries.filterMap DirectoryEntry.icon?)) :=
  foldlM_addEntry h .empty

/-! ### Icons with one name -/

/-- The icons of the files with a sprite name, in the order of the listing. -/
def iconsNamed (entries : List DirectoryEntry) (name : String) : List Icon :=
  Dictionary.bindings name (entries.filterMap DirectoryEntry.icon?)

lemma mem_iconsNamed_iff {name : String} {icon : Icon} :
    icon ∈ iconsNamed entries name ↔ ∃ e ∈ entries, e.icon? = some (name, icon) := by
  rw [iconsNamed, Dictionary.mem_bindings_iff, List.mem_filterMap]

lemma perm_iconsNamed (h : order.Perm entries) (name : String) :
    (iconsNamed order name).Perm (iconsNamed entries name) :=
  (h.filterMap _).filterMap _

/-- Any of the icons is the last one of some listing. -/
lemma exists_perm_getLast? {name : String} {icon : Icon} (h : icon ∈ iconsNamed entries name) :
    ∃ order, order.Perm entries ∧ (iconsNamed order name).getLast? = some icon := by
  obtain ⟨e, he, hicon⟩ := mem_iconsNamed_iff.mp h
  obtain ⟨before, after, rfl⟩ := List.append_of_mem he
  refine ⟨before ++ after ++ [e], ?_, ?_⟩
  · rw [List.append_assoc]
    exact (List.perm_append_singleton e after).append_left before
  · simp [iconsNamed, Dictionary.bindings, hicon]

lemma getLast?_eq_iff_forall_eq {name : String} :
    (∀ order, order.Perm entries →
      (iconsNamed order name).getLast? = (iconsNamed entries name).getLast?) ↔
    ∀ a ∈ iconsNamed entries name, ∀ b ∈ iconsNamed entries name, a = b := by
  constructor
  · intro h a ha b hb
    obtain ⟨first, hfirst, hlast⟩ := exists_perm_getLast? ha
    obtain ⟨second, hsecond, hlast'⟩ := exists_perm_getLast? hb
    rw [h first hfirst, ← h second hsecond, hlast'] at hlast
    exact (Option.some.inj hlast).symm
  · intro h order horder
    have hperm := perm_iconsNamed horder name
    cases hlast : (iconsNamed order name).getLast? with
    | none =>
      rw [List.getLast?_eq_none_iff] at hlast
      rw [hlast, List.nil_perm] at hperm
      rw [hperm, List.getLast?_nil]
    | some a =>
      have ha := hperm.subset (List.mem_of_getLast? hlast)
      obtain ⟨b, hb⟩ := Option.ne_none_iff_exists'.mp
        (mt List.getLast?_eq_none_iff.mp (List.ne_nil_of_mem ha))
      rw [hb, h a ha b (List.mem_of_getLast? hb)]

/-- Whether a name has a file with the size and one without, and their icons differ. -/
def Clashes (entries : List DirectoryEntry) (name : String) : Prop :=
  ∃ plain ∈ entries, ∃ sized ∈ entries,
    plain.name = name ++ ".svg" ∧ sized.name = name ++ "-15.svg" ∧
    ∃ a b, plain.icon? = some (name, a) ∧ sized.icon? = some (name, b) ∧ a ≠ b

lemma not_clashes_iff_forall_eq (hnames : (entries.map DirectoryEntry.name).Nodup)
    {name : String} :
    ¬Clashes entries name ↔
      ∀ a ∈ iconsNamed entries name, ∀ b ∈ iconsNamed entries name, a = b := by
  constructor
  · intro h a ha b hb
    obtain ⟨e, he, hicon⟩ := mem_iconsNamed_iff.mp ha
    obtain ⟨e', he', hicon'⟩ := mem_iconsNamed_iff.mp hb
    have hsame : e.name = e'.name → a = b := by
      intro heq
      obtain rfl := List.inj_on_of_nodup_map hnames he he' heq
      exact (Prod.mk.inj (Option.some.inj (hicon.symm.trans hicon'))).2
    by_contra hne
    rcases name_of_icon? hicon with hplain | hsized <;>
      rcases name_of_icon? hicon' with hplain' | hsized'
    · exact hne (hsame (hplain.trans hplain'.symm))
    · exact h ⟨e, he, e', he', hplain, hsized', a, b, hicon, hicon', hne⟩
    · exact h ⟨e', he', e, he, hplain', hsized, b, a, hicon', hicon, Ne.symm hne⟩
    · exact hne (hsame (hsized.trans hsized'.symm))
  · rintro h ⟨plain, hplain, sized, hsized, -, -, a, b, hicon, hicon', hne⟩
    exact hne (h a (mem_iconsNamed_iff.mpr ⟨plain, hplain, hicon⟩) b
      (mem_iconsNamed_iff.mpr ⟨sized, hsized, hicon'⟩))

/-- Whether an atlas is what the entries of a directory give in some order. -/
def MayLoad (path : String) (entries : List DirectoryEntry) (atlas : IconAtlas) : Prop :=
  ∃ order, order.Perm entries ∧ load path (some order) = .ok atlas

lemma find?_of_load (h : ∀ e ∈ entries, e.IsReadable) (horder : order.Perm entries)
    {atlas : IconAtlas} (hload : load path (some order) = .ok atlas) (name : String) :
    atlas.find? name = (iconsNamed order name).getLast? := by
  rw [load_eq_ok path fun e he => h e (horder.subset he)] at hload
  obtain rfl := Except.ok.inj hload
  exact Dictionary.find?_ofList _ name

lemma find?_eq_iff_not_clashes (path : String) (hnames : (entries.map DirectoryEntry.name).Nodup)
    (h : ∀ e ∈ entries, e.IsReadable) (name : String) :
    (∀ a b, MayLoad path entries a → MayLoad path entries b → a.find? name = b.find? name) ↔
      ¬Clashes entries name := by
  rw [not_clashes_iff_forall_eq hnames, ← getLast?_eq_iff_forall_eq]
  constructor
  · intro hsame order horder
    have hload := load_eq_ok path fun e he => h e (horder.subset he)
    have hload' := load_eq_ok path h
    rw [← find?_of_load h horder hload, ← find?_of_load h (.refl _) hload']
    exact hsame _ _ ⟨order, horder, hload⟩ ⟨entries, .refl _, hload'⟩
  · rintro hlast a b ⟨first, hfirst, ha⟩ ⟨second, hsecond, hb⟩
    rw [find?_of_load h hfirst ha, find?_of_load h hsecond hb, hlast first hfirst,
      hlast second hsecond]

end IconAtlas

/-! ### Exports -/

namespace Exporter

variable {α : Type u} [Zero α] [One α] [Add α] [Sub α] [Neg α] [Mul α] [Div α] [LT α] [LE α]
  [DecidableLT α] [DecidableLE α] [BEq α] [Hypot α] [OfDouble α]

/-- An export depends on the icons of the points of interest that it shows only. -/
lemma run?_congr_icons (o : ExportOptions) (measure : TextMeasure) {a b : IconAtlas}
    {d : Definition} (h : ∀ poi ∈ d.pois, a.find? poi.sprite = b.find? poi.sprite) (c : Canvas α)
    (features : List (MapFeature α)) :
    (Exporter.mk o a measure).run? c d features = (Exporter.mk o b measure).run? c d features := by
  have hgroups : d.pois.map (Export.poiGroup o a measure c) =
      d.pois.map (Export.poiGroup o b measure c) := by
    apply List.map_congr_left
    intro poi hpoi
    simp only [Export.poiGroup, h poi hpoi]
  have hproblems : d.pois.filterMap (Export.poiDiagnostic? a) =
      d.pois.filterMap (Export.poiDiagnostic? b) := by
    apply List.filterMap_congr
    intro poi hpoi
    simp only [Export.poiDiagnostic?, h poi hpoi]
  simp only [run?, drawingOf, diagnose, poisLayer, hgroups, hproblems]
  rfl

end Exporter

namespace IconAtlas

section Exports

variable (α : Type u) [Zero α] [One α] [Add α] [Sub α] [Neg α] [Mul α] [Div α] [LT α] [LE α]
  [DecidableLT α] [DecidableLE α] [BEq α] [Hypot α] [OfDouble α]

/-- When the order of a listing matters. A directory whose files can be read is loaded in any order.
The icon of a name is always the same exactly if the name does not clash, so the atlas is always the
same exactly if no name does, and an export is always the same if no sprite that it shows does. -/
theorem mayLoad_iff_not_clashes (path : String) {entries : List DirectoryEntry}
    (hnames : (entries.map DirectoryEntry.name).Nodup) (hread : ∀ e ∈ entries, e.IsReadable) :
    (∀ order, order.Perm entries → ∃ atlas, load path (some order) = .ok atlas) ∧
    (∀ name,
      (∀ a b, MayLoad path entries a → MayLoad path entries b → a.find? name = b.find? name) ↔
        ¬Clashes entries name) ∧
    ((∀ a b, MayLoad path entries a → MayLoad path entries b → a = b) ↔
      ∀ name, ¬Clashes entries name) ∧
    ∀ a b, MayLoad path entries a → MayLoad path entries b → ∀ d : Definition,
      (∀ poi ∈ d.pois, ¬Clashes entries poi.sprite) →
        ∀ (o : ExportOptions) (measure : TextMeasure) (c : Canvas α)
          (features : List (MapFeature α)),
          (Exporter.mk o a measure).run? c d features =
            (Exporter.mk o b measure).run? c d features := by
  have hname := find?_eq_iff_not_clashes path hnames hread
  refine ⟨fun order horder => ⟨_, load_eq_ok path ?_⟩, hname, ?_, ?_⟩
  · exact fun e he => hread e (horder.subset he)
  · constructor
    · intro hsame name
      refine (hname name).mp fun a b ha hb => ?_
      rw [hsame a b ha hb]
    · intro hclash a b ha hb
      exact Dictionary.ext_find? fun name => (hname name).mpr (hclash name) a b ha hb
  · intro a b ha hb d hclash o measure c features
    exact Exporter.run?_congr_icons o measure
      (fun poi hpoi => (hname poi.sprite).mpr (hclash poi hpoi) a b ha hb) c features

end Exports

/-- A directory with one icon under two file names, and something else. -/
def sameCafes : List DirectoryEntry := [
  ⟨"cafe.svg", some "<svg>a</svg>".toUTF8⟩, ⟨"notes", none⟩,
  ⟨"cafe-15.svg", some "<svg>a</svg>".toUTF8⟩]

theorem mayLoad_sameCafes :
    (sameCafes.map DirectoryEntry.name).Nodup ∧ (∀ e ∈ sameCafes, e.IsReadable) ∧
    (∃ atlas, load "icons" (some sameCafes.reverse) = .ok atlas) ∧
    ∀ a b, MayLoad "icons" sameCafes a → MayLoad "icons" sameCafes b → a = b := by
  have hnames : (sameCafes.map DirectoryEntry.name).Nodup := by decide
  have hread : ∀ e ∈ sameCafes, e.IsReadable := by
    unfold DirectoryEntry.IsReadable
    decide +kernel
  obtain ⟨hload, -, hsame, -⟩ := mayLoad_iff_not_clashes Float "icons" hnames hread
  refine ⟨hnames, hread, hload _ (List.reverse_perm _), hsame.mpr ?_⟩
  have hcontent : ∀ e ∈ sameCafes, e.content.bind String.fromUTF8? = none ∨
      e.content.bind String.fromUTF8? = some "<svg>a</svg>" := by decide +kernel
  have htext : ∀ e ∈ sameCafes, ∀ p, e.icon? = some p → Icon.ofSvg? "<svg>a</svg>" = some p.2 := by
    intro e he p hp
    obtain ⟨_, -, hp⟩ := Option.bind_eq_some_iff.mp hp
    obtain ⟨text, htext, hp⟩ := Option.bind_eq_some_iff.mp hp
    obtain ⟨icon, hicon, hp⟩ := Option.bind_eq_some_iff.mp hp
    obtain rfl := Option.some.inj hp
    rcases hcontent e he with hnone | hsome
    · cases hnone.symm.trans htext
    · rwa [Option.some.inj (hsome.symm.trans htext)]
  rintro name ⟨plain, hplain, sized, hsized, -, -, a, b, ha, hb, hne⟩
  exact hne (Option.some.inj ((htext plain hplain _ ha).symm.trans (htext sized hsized _ hb)))

/-- A directory with two icons for a café. -/
def twoCafes : List DirectoryEntry := [
  ⟨"cafe.svg", some "<svg>a</svg>".toUTF8⟩, ⟨"cafe-15.svg", some "<svg>b</svg>".toUTF8⟩]

/-- Which of the two is loaded depends on the order. -/
theorem find?_twoCafes :
    (twoCafes.map DirectoryEntry.name).Nodup ∧ (∀ e ∈ twoCafes, e.IsReadable) ∧
    ∃ a b, MayLoad "icons" twoCafes a ∧ MayLoad "icons" twoCafes b ∧
      (a.find? "cafe").map Icon.markup = some "b" ∧
      (b.find? "cafe").map Icon.markup = some "a" := by
  have hread : ∀ e ∈ twoCafes, e.IsReadable := by
    unfold DirectoryEntry.IsReadable
    decide +kernel
  have hreversed : ∀ e ∈ twoCafes.reverse, e.IsReadable :=
    fun e he => hread e (List.mem_reverse.mp he)
  refine ⟨by decide, hread, _, _, ⟨twoCafes, .refl _, load_eq_ok _ hread⟩,
    ⟨twoCafes.reverse, List.reverse_perm _, load_eq_ok _ hreversed⟩, ?_, ?_⟩
  · decide +kernel
  · decide +kernel

end IconAtlas

end MapStyle
