import MapStyle.Text.Cut
import Mathlib.Data.List.Infix
import Mathlib.Data.List.Basic
import Mathlib.Tactic.Lemma

/-!
# Where texts are cut

A text is cut at a mark where the mark stands and nowhere before (or after) it. Between stops that
the mark ends with and has nowhere else, only whole pieces between them matter.
-/

namespace MapStyle.Text

variable {m c : Char} {ms mark before text rest after : List Char}

/-! ### First occurrences -/

lemma cutFirst?_append (h : m ∉ before) (text : List Char) :
    cutFirst? (m :: ms) (before ++ text) =
      (cutFirst? (m :: ms) text).map fun parts => (before ++ parts.1, parts.2) := by
  induction before with
  | nil => simp
  | cons c before ih =>
    obtain ⟨hc, hbefore⟩ := not_or.mp (mt List.mem_cons.mpr h)
    rw [List.cons_append, cutFirst?, if_neg (by simp [hc]), ih hbefore, Option.map_map]
    rfl

lemma cutFirst?_mark (h : mark ≠ []) (rest : List Char) :
    cutFirst? mark (mark ++ rest) = some ([], rest) := by
  obtain ⟨m, ms, rfl⟩ := List.exists_cons_of_ne_nil h
  rw [List.cons_append, cutFirst?, if_pos (by simp)]
  simp

lemma cutFirst?_char (h : c ∉ before) (rest : List Char) :
    cutFirst? [c] (before ++ c :: rest) = some (before, rest) := by
  have hmark := cutFirst?_mark (List.cons_ne_nil c []) rest
  rw [List.singleton_append] at hmark
  rw [cutFirst?_append h, hmark, Option.map_some, List.append_nil]

/-- A mark whose first character it has once does not overlap with text before it. -/
lemma not_starts_of_absent (hm : m ∉ ms) (h : ¬m :: ms <:+: c :: before) (rest : List Char) :
    ¬m :: ms <+: c :: (before ++ (m :: ms ++ rest)) := by
  intro hstarts
  obtain ⟨rfl, htail⟩ := List.cons_prefix_cons.mp hstarts
  obtain hlt | hle := Nat.lt_or_ge before.length ms.length
  · have hover : before ++ [m] <+: ms := by
      refine List.prefix_of_prefix_length_le ?_ htail (by simpa using Nat.succ_le_of_lt hlt)
      exact (List.prefix_append_right_inj before).mpr (by simp)
    exact hm (hover.mem (by simp))
  · have hwithin := List.prefix_of_prefix_length_le htail (List.prefix_append _ _) hle
    exact h (List.cons_prefix_cons.mpr ⟨rfl, hwithin⟩).isInfix

lemma cutFirst?_of_absent (hm : m ∉ ms) (h : ¬m :: ms <:+: before) (rest : List Char) :
    cutFirst? (m :: ms) (before ++ (m :: ms ++ rest)) = some (before, rest) := by
  induction before with
  | nil => exact cutFirst?_mark (List.cons_ne_nil m ms) rest
  | cons c before ih =>
    have hhead := not_starts_of_absent hm h rest
    have htail := ih fun hinside => h (hinside.trans (List.suffix_cons c before).isInfix)
    rw [List.cons_append, cutFirst?, if_neg (mt List.isPrefixOf_iff_prefix.mp hhead), htail]
    rfl

/-! ### Last occurrences -/

lemma cutLast?_eq_none (hne : mark ≠ []) (h : ¬mark <:+: text) : cutLast? mark text = none := by
  induction text with
  | nil => rw [cutLast?, if_neg (by simpa using hne)]
  | cons c text ih =>
    rw [cutLast?, ih fun hinside => h (hinside.trans (List.suffix_cons c text).isInfix)]
    exact if_neg fun hstarts => h (List.isPrefixOf_iff_prefix.mp hstarts).isInfix

lemma occurs_of_occurs_append (hm : m ∉ before) (h : m :: ms <:+: before ++ text) :
    m :: ms <:+: text := by
  induction before with
  | nil => exact h
  | cons c before ih =>
    obtain ⟨hc, hbefore⟩ := not_or.mp (mt List.mem_cons.mpr hm)
    obtain hstarts | hinside := List.infix_cons_iff.mp h
    · exact absurd (List.cons_prefix_cons.mp hstarts).1 hc
    · exact ih hbefore hinside

lemma cutLast?_of_absent (hm : m ∉ ms) (h : ¬m :: ms <:+: after) (before : List Char) :
    cutLast? (m :: ms) (before ++ (m :: ms ++ after)) = some (before, after) := by
  induction before with
  | nil =>
    have hnone := cutLast?_eq_none (List.cons_ne_nil m ms) (mt (occurs_of_occurs_append hm) h)
    rw [List.nil_append, List.cons_append, cutLast?, hnone]
    simp
  | cons c before ih => rw [List.cons_append, cutLast?, ih]

/-! ### Marks that end with a stop -/

variable {stop : Char} {lead piece : List Char}

lemma prefix_stop_iff (hlead : stop ∉ lead) (hpiece : stop ∉ piece) (rest : List Char) :
    lead ++ [stop] <+: piece ++ stop :: rest ↔ lead = piece := by
  constructor
  · rintro ⟨tail, htail⟩
    rw [List.append_assoc, List.singleton_append] at htail
    have hcut := cutFirst?_char hlead tail
    rw [htail, cutFirst?_char hpiece rest] at hcut
    exact (Prod.mk.inj (Option.some.inj hcut)).1.symm
  · rintro rfl
    exact ⟨rest, by simp⟩

/-- The first stop ends the mark if the piece before it ends with what stands before it there. -/
lemma cutFirst?_stop (hlead : stop ∉ lead) (hpiece : stop ∉ piece) (rest : List Char) :
    (cutFirst? (lead ++ [stop]) (piece ++ stop :: rest)).map Prod.snd =
      if lead <:+ piece then some rest else (cutFirst? (lead ++ [stop]) rest).map Prod.snd := by
  induction piece with
  | nil =>
    have hstarts := prefix_stop_iff hlead hpiece rest
    rw [List.nil_append] at hstarts ⊢
    simp only [cutFirst?, List.isPrefixOf_iff_prefix, hstarts, List.suffix_nil]
    split
    · next hnil => simp [hnil]
    · rw [Option.map_map]; rfl
  | cons c piece ih =>
    have hstarts := prefix_stop_iff hlead hpiece rest
    rw [List.cons_append] at hstarts ⊢
    simp only [cutFirst?, List.isPrefixOf_iff_prefix, hstarts, List.suffix_cons_iff]
    by_cases heq : lead = c :: piece
    · simp [heq]
    · have hpiece' := (not_or.mp (mt List.mem_cons.mpr hpiece)).2
      simp only [heq, if_false, false_or, Option.map_map, ← ih hpiece']
      rfl

end MapStyle.Text
