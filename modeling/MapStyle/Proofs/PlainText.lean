import MapStyle.Drawing.Svg
import MapStyle.Proofs.MarkupReading
import Mathlib.Tactic.Lemma
import Mathlib.Tactic.SplitIfs

/-!
# Plain texts

Numbers, path data, transformations and colors are written with printable characters of ASCII that
need no escape. So of all attributes of a drawing only the labels of groups are ever escaped.
-/

namespace MapStyle

namespace Markup

/-- Whether a text has only printable characters of ASCII that are written as they are. -/
def IsPlain (text : List Char) : Prop :=
  ∀ c ∈ text, ' ' ≤ c ∧ c ≤ '~' ∧ escape c = [c]

instance (text : List Char) : Decidable (IsPlain text) :=
  List.decidableBAll _ text

namespace IsPlain

variable {text rest : List Char} {c : Char}

lemma append (htext : IsPlain text) (hrest : IsPlain rest) : IsPlain (text ++ rest) :=
  List.forall_mem_append.mpr ⟨htext, hrest⟩

lemma cons (hc : IsPlain [c]) (htext : IsPlain text) : IsPlain (c :: text) :=
  .append hc htext

lemma sublist (h : IsPlain text) (hpart : rest.Sublist text) : IsPlain rest :=
  fun c hc => h c (hpart.subset hc)

lemma replicate (h : IsPlain [c]) (n : Nat) : IsPlain (List.replicate n c) := by
  intro d hd
  rw [List.eq_of_mem_replicate hd]
  exact h c (List.mem_singleton_self c)

lemma digitChar : ∀ n < 16, IsPlain [Nat.digitChar n] := by
  decide

lemma natDigits (n : Nat) : IsPlain (Text.natDigits n) := by
  have hdigits : ∀ k < 58, 48 ≤ k → IsPlain [Char.ofNat k] := by decide
  intro c hc
  obtain ⟨hlow, hhigh⟩ :=
    Char.isDigit_iff_toNat.mp (Nat.isDigit_of_mem_toDigits (by decide) (by decide) hc)
  have hplain := hdigits c.toNat (Nat.lt_succ_of_le hhigh) hlow
  rw [Char.ofNat_toNat] at hplain
  exact hplain c (List.mem_singleton_self c)

lemma separated {texts : List (List Char)} (h : ∀ text ∈ texts, IsPlain text) {separator : Char}
    (hseparator : IsPlain [separator]) : IsPlain (Drawing.separated separator texts) := by
  unfold Drawing.separated
  induction texts with
  | nil => simp [IsPlain]
  | cons text texts ih =>
    obtain ⟨htext, htexts⟩ := List.forall_mem_cons.mp h
    cases texts with
    | nil => simpa using htext
    | cons next texts =>
      rw [List.intercalate_cons_cons]
      exact .append (.append htext hseparator) (ih htexts)

end IsPlain

lemma escaped_of_isPlain {text : String} (h : IsPlain text.toList) :
    escaped text = text.toList := by
  have hflat : ∀ chars : List Char, IsPlain chars → chars.flatMap escape = chars := by
    intro chars
    induction chars with
    | nil => exact fun _ => rfl
    | cons c cs ih =>
      intro hchars
      obtain ⟨hc, hcs⟩ := List.forall_mem_cons.mp hchars
      rw [List.flatMap_cons, hc.2.2, ih hcs, List.singleton_append]
  exact hflat text.toList h

end Markup

open Markup

/-! ### Numbers -/

namespace Decimal

lemma isPlain_withPoint {digits : List Char} (h : IsPlain digits) (marksWhole : Bool)
    (point : Int) : IsPlain (withPoint marksWhole digits point) := by
  have hpoint : IsPlain ['.'] := by decide
  have hzeros (n : Nat) : IsPlain (zeros n) := .replicate (by decide) n
  unfold withPoint
  split
  · exact .cons (by decide) (.cons hpoint (.append (hzeros _) h))
  · split
    · refine .append (.append h (hzeros _)) ?_
      split <;> decide
    · exact .append (h.sublist (List.take_sublist _ _))
        (.append hpoint (h.sublist (List.drop_sublist _ _)))

lemma isPlain_withExponent {digits : List Char} (h : IsPlain digits) (point : Int) :
    IsPlain (withExponent digits point) := by
  have hfraction : IsPlain (if digits.length ≤ 1 then [] else '.' :: digits.drop 1) := by
    split
    · decide
    · exact .cons (by decide) (h.sublist (List.drop_sublist _ _))
  have hexponent (sign : Char) (hsign : IsPlain [sign]) :
      IsPlain ('e' :: sign :: Text.natDigits (point - 1).natAbs) :=
    .cons (by decide) (.cons hsign (.natDigits _))
  unfold withExponent
  refine .append (.append (h.sublist (List.take_sublist _ _)) hfraction) (hexponent _ ?_)
  split <;> decide

/-- Every number is written with plain characters, whatever the layout. -/
lemma isPlain_write (l : Layout) (x : Float) : IsPlain (l.write x) := by
  have hmagnitude (m : Nat) (e : Int) : IsPlain (l.magnitude m e) := by
    unfold Layout.magnitude
    split
    · split <;> decide
    · simp only
      split
      · exact isPlain_withPoint (.natDigits _) _ _
      · exact isPlain_withExponent (.natDigits _) _
  unfold Layout.write
  split
  · decide
  · next negative _ => cases negative <;> decide
  · next negative m e _ => cases negative <;> exact .append (by decide) (hmagnitude m e)

end Decimal

namespace Drawing

lemma isPlain_number (x : Float) : IsPlain (number x) := by
  unfold number
  simp only
  split
  · decide
  · exact Decimal.isPlain_write _ _

lemma isPlain_numbers (xs : List Float) : IsPlain (numbers xs) := by
  refine .separated ?_ (by decide)
  intro text htext
  obtain ⟨x, -, rfl⟩ := List.mem_map.mp htext
  exact isPlain_number x

lemma isPlain_command {letter : Char} (h : IsPlain [letter]) (xs : List Float) :
    IsPlain (letter :: ' ' :: numbers xs) :=
  .cons h (.cons (by decide) (isPlain_numbers xs))

lemma isPlain_data (p : Path Float) : IsPlain p.data.toList := by
  rw [Path.data, String.toList_ofList]
  refine .separated ?_ (by decide)
  intro text htext
  obtain ⟨step, -, rfl⟩ := List.mem_map.mp htext
  cases step with
  | close => decide
  | _ => exact isPlain_command (by decide) _

lemma isPlain_transformText (t : Affine Float) : IsPlain (transformText t).toList := by
  have hcall (name : List Char) (hname : IsPlain name) (xs : List Float) :
      IsPlain (name ++ numbers xs ++ [')']) :=
    .append (.append hname (isPlain_numbers xs)) (by decide)
  rw [transformText, String.toList_ofList]
  split
  · exact hcall _ (by decide) _
  · exact hcall _ (by decide) _

lemma isPlain_opaqueHex (c : Color) : IsPlain c.opaqueHex.toList := by
  have hbyte (n : UInt8) : IsPlain (Color.hexByte n) := by
    have hn := n.toNat_lt
    exact .append (.digitChar (n.toNat / 16) (by omega)) (.digitChar (n.toNat % 16) (by omega))
  rw [Color.opaqueHex, String.toList_ofList]
  exact .append (.append (.cons (by decide) (hbyte _)) (hbyte _)) (hbyte _)

/-! ### Attributes -/

/-- Whether attributes have names and values that are written as they are. -/
def PlainAttributes (attributes : List (String × String)) : Prop :=
  ∀ a ∈ attributes, IsName a.1 ∧ IsPlain a.2.toList

namespace PlainAttributes

variable {name value : String} {attributes others : List (String × String)}

lemma append (h : PlainAttributes attributes) (hothers : PlainAttributes others) :
    PlainAttributes (attributes ++ others) :=
  List.forall_mem_append.mpr ⟨h, hothers⟩

lemma cons (hname : IsName name) (hvalue : IsPlain value.toList)
    (hothers : PlainAttributes others) : PlainAttributes ((name, value) :: others) :=
  List.forall_mem_cons.mpr ⟨⟨hname, hvalue⟩, hothers⟩

lemma nil : PlainAttributes [] :=
  List.forall_mem_nil _

lemma number (h : IsName name) (x : Float) (hothers : PlainAttributes others) :
    PlainAttributes (numberAttribute name x :: others) := by
  refine .cons h ?_ hothers
  rw [String.toList_ofList]
  exact isPlain_number x

lemma paint (h : IsName name) (hopacity : IsName (name ++ "-opacity")) (c : Color) :
    PlainAttributes (paintAttributes name c) := by
  refine .cons h (isPlain_opaqueHex c) ?_
  cases c.opacity with
  | none => exact .nil
  | some o => exact .number hopacity o .nil

end PlainAttributes

lemma plainAttributes_stroke (s : Stroke) : PlainAttributes s.attributes := by
  refine .append (.paint (by decide) (by decide) s.color) (.number (by decide) s.width ?_)
  cases s.dashes with
  | none => exact .nil
  | some dashes =>
    refine .cons (by decide) ?_ .nil
    rw [String.toList_ofList]
    refine .separated ?_ (by decide)
    simp [isPlain_number]

lemma plainAttributes_path (p : Path Float) : PlainAttributes p.attributes := by
  refine .cons (by decide) (isPlain_data p) (.append ?_ ?_)
  · cases p.fill with
    | none => exact .cons (by decide) (by decide) .nil
    | some c => exact .paint (by decide) (by decide) c
  · cases p.stroke with
    | none => exact .nil
    | some s => exact plainAttributes_stroke s

lemma plainAttributes_label (l : Label Float) : PlainAttributes l.attributes := by
  have hanchor : IsPlain l.anchor.name.toList := by
    cases l.anchor <;> decide
  refine .append (.number (by decide) _ (.number (by decide) _ (.number (by decide) _ ?_)))
    (.paint (by decide) (by decide) l.fill)
  exact .cons (by decide) hanchor .nil

lemma plainAttributes_root (size : Size Float) : PlainAttributes (rootAttributes size) := by
  have hbox : IsPlain (String.ofList (numbers [0.0, 0.0, size.width, size.height])).toList := by
    rw [String.toList_ofList]
    exact isPlain_numbers _
  exact .cons (by decide) (by decide) (.cons (by decide) (by decide) (.cons (by decide) hbox
    (.number (by decide) _ (.number (by decide) _ .nil))))

/-- What a group has besides its label is written as it is. -/
lemma plainAttributes_group (h : GroupHead Float) :
    PlainAttributes (({ h with label := none } : GroupHead Float).attributes) := by
  refine .append (.append .nil ?_) ?_
  · cases h.isLayer with
    | false => exact .nil
    | true => exact .cons (by decide) (by decide) .nil
  · cases h.transform with
    | none => exact .nil
    | some t => exact .cons (by decide) (isPlain_transformText t) .nil

end Drawing

end MapStyle
