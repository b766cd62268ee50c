import MapStyle.Proofs.Edits
import Mathlib.Data.List.TakeDrop
import Mathlib.Data.List.TakeWhile
import Mathlib.Data.Prod.Lex
import Mathlib.Order.Monotone.Basic

/-!
# Revisions along a history

Successors of a revision token never repeat. Counting up keeps the hyphens of a token and makes the
number after the last one greater; whatever cannot be counted up gets one more hyphen, and no
successor ever has fewer. So tokens grow in the lexicographic order of both.
-/

namespace MapStyle

namespace Revision

/-- The number after the last hyphen of a text; zero if there is none. -/
def counter (text : List Char) : Nat :=
  ((splitLast? text).bind fun parts => Text.readNat? parts.2).getD 0

/-- How far a token is counted: by its hyphens first, then by the number after the last one. -/
def rank (text : List Char) : ℕ ×ₗ ℕ :=
  toLex (text.count '-', counter text)

/-! ### The last hyphen -/

lemma splitLast?_append (base : List Char) {digits : List Char} (h : '-' ∉ digits) :
    splitLast? (base ++ '-' :: digits) = some (base, digits) := by
  have hall : ∀ c ∈ digits.reverse, (c != '-') = true :=
    fun c hc => bne_iff_ne.mpr (ne_of_mem_of_not_mem (List.mem_reverse.mp hc) h)
  have hspan : (digits.reverse ++ '-' :: base.reverse).span (· != '-') =
      (digits.reverse, '-' :: base.reverse) := by
    rw [List.span_eq_takeWhile_dropWhile, List.takeWhile_append_of_pos hall,
      List.dropWhile_append_of_pos hall]
    simp
  have hreverse : (base ++ '-' :: digits).reverse = digits.reverse ++ '-' :: base.reverse := by
    simp
  rw [splitLast?, hreverse, hspan]
  simp

lemma splitLast?_eq_none {text : List Char} (h : '-' ∉ text) : splitLast? text = none := by
  have hdrop : text.reverse.dropWhile (· != '-') = [] := by
    rw [List.dropWhile_eq_nil_iff]
    exact fun c hc => bne_iff_ne.mpr (ne_of_mem_of_not_mem (List.mem_reverse.mp hc) h)
  rw [splitLast?, List.span_eq_takeWhile_dropWhile, hdrop]

lemma eq_append_of_splitLast? {text base digits : List Char}
    (h : splitLast? text = some (base, digits)) : text = base ++ '-' :: digits ∧ '-' ∉ digits := by
  by_cases hmem : '-' ∈ text
  · obtain ⟨after, before, hreverse, hafter⟩ :=
      List.eq_append_cons_of_mem (List.mem_reverse.mpr hmem)
    have htext : text = before.reverse ++ '-' :: after.reverse := by
      rw [← List.reverse_reverse text, hreverse]
      simp
    have hlast : '-' ∉ after.reverse := fun hc => hafter (List.mem_reverse.mp hc)
    rw [htext, splitLast?_append _ hlast] at h
    cases h
    exact ⟨htext, hlast⟩
  · rw [splitLast?_eq_none hmem] at h
    cases h

lemma minus_not_mem_natDigits (n : Nat) : '-' ∉ Text.natDigits n := by
  intro hmem
  have hdigit := Nat.isDigit_of_mem_toDigits (by decide) (by decide) hmem
  exact absurd hdigit (by decide)

lemma counter_counted (base : List Char) (n : Nat) :
    counter (base ++ '-' :: Text.natDigits n) = n := by
  rw [counter, splitLast?_append base (minus_not_mem_natDigits n), Option.bind_some,
    Text.readNat?_natDigits, Option.getD_some]

/-! ### Successors -/

lemma rank_lt_counted {base digits : List Char} {n : Nat} (hdigits : '-' ∉ digits)
    (hn : Text.readNat? digits = some n) :
    rank (base ++ '-' :: digits) < rank (base ++ '-' :: Text.natDigits (n + 1)) := by
  have hcounter : counter (base ++ '-' :: digits) = n := by
    rw [counter, splitLast?_append base hdigits, Option.bind_some, hn, Option.getD_some]
  rw [rank, rank, Prod.Lex.toLex_lt_toLex]
  right
  constructor
  · simp only [List.count_append, List.count_cons_self, List.count_eq_zero.mpr hdigits,
      List.count_eq_zero.mpr (minus_not_mem_natDigits (n + 1))]
  · simp only [hcounter, counter_counted]
    omega

lemma rank_lt_appended (text : List Char) : rank text < rank (text ++ ['-', '1']) := by
  rw [rank, rank, Prod.Lex.toLex_lt_toLex]
  left
  simp

lemma rank_lt_nextText (text : List Char) : rank text < rank (nextText text) := by
  unfold nextText
  simp only
  split
  · exact rank_lt_appended text
  · next base digits hsplit =>
    split
    · exact rank_lt_appended text
    · next n hn =>
      -- a counter at its bound stays, and the token gets a hyphen as if there were none
      split
      · obtain ⟨rfl, hdigits⟩ := eq_append_of_splitLast? hsplit
        exact rank_lt_counted hdigits hn
      · exact rank_lt_appended text

lemma next_injective_iterate (r : Revision) : Function.Injective fun n => next^[n] r := by
  have hmono : StrictMono fun n => rank (next^[n] r).token.toList := by
    apply strictMono_nat_of_lt_succ
    intro n
    rw [Function.iterate_succ_apply', next, String.toList_ofList]
    exact rank_lt_nextText _
  intro m n h
  exact hmono.injective (congrArg (fun s : Revision => rank s.token.toList) h)

end Revision

/-! ### Histories -/

namespace Edit

/-- The definitions that edits give one after another, from the one that they start with to the last
one before an edit fails. -/
def history (d : Definition) : List Edit → List Definition
  | [] => [d]
  | e :: edits =>
    match e.apply d with
    | .ok edited => d :: history edited edits
    | .error _ => [d]

variable {d d' : Definition}

lemma revision_apply {e : Edit} (happly : e.apply d = .ok d') :
    d'.revision = d.revision.next := by
  cases e with
  | add r =>
    obtain ⟨-, rfl⟩ := Definition.addRule_eq_ok_iff.mp happly
    rfl
  | remove id =>
    obtain ⟨_, _, _, -, -, rfl⟩ := Definition.rules_of_removeRule happly
    rfl
  | replace r =>
    obtain ⟨_, _, _, -, -, -, rfl⟩ := Definition.rules_of_replaceRule happly
    rfl
  | move source target =>
    obtain ⟨-, rfl⟩ := Definition.moveRule_eq_ok_iff.mp happly
    rfl
  | toggle poi =>
    cases happly
    rfl

lemma map_revision_history (d : Definition) (edits : List Edit) :
    (history d edits).map Definition.revision =
      (List.range (history d edits).length).map fun n => Revision.next^[n] d.revision := by
  induction edits generalizing d with
  | nil => rfl
  | cons e edits ih =>
    rw [history]
    split
    · next edited happly =>
      rw [List.map_cons, ih, revision_apply happly, List.length_cons, List.range_succ_eq_map,
        List.map_cons, List.map_map]
      rfl
    · rfl

lemma history_of_run {edits : List Edit} (hrun : run d edits = .ok d') :
    (history d edits).length = edits.length + 1 ∧ (history d edits).getLast? = some d' := by
  induction edits generalizing d with
  | nil =>
    cases hrun
    exact ⟨rfl, rfl⟩
  | cons e edits ih =>
    rw [run, List.foldlM_cons] at hrun
    obtain ⟨edited, happly, hrest⟩ := bind_eq_ok_iff.mp hrun
    obtain ⟨hlength, hlast⟩ := ih hrest
    rw [history, happly]
    exact ⟨congrArg (· + 1) hlength, by simp [List.getLast?_cons, hlast]⟩

/-- Revision tokens never repeat. The successors of any token differ from it and from each other,
and so do the revisions along any history of edits. If all edits succeed, the history has a
definition for each and one to start with, and ends with what the edits give. -/
theorem nodup_revisions :
    (∀ (r : Revision) (m n : Nat), m < n → Revision.next^[m] r ≠ Revision.next^[n] r) ∧
    ∀ (d : Definition) (edits : List Edit),
      ((history d edits).map Definition.revision).Nodup ∧
      ∀ last, run d edits = .ok last →
        (history d edits).length = edits.length + 1 ∧ (history d edits).getLast? = some last := by
  constructor
  · intro r m n hlt heq
    exact hlt.ne (r.next_injective_iterate heq)
  · intro d edits
    refine ⟨?_, fun last hrun => history_of_run hrun⟩
    rw [map_revision_history]
    exact List.nodup_range.map d.revision.next_injective_iterate

/-- A definition whose revision can be counted up once more. -/
def lateStyle : Definition := ⟨⟨"late-18446744073709551614"⟩, [], []⟩

/-- Edits that add a rule, save a place and remove the rule. -/
def lateEdits : List Edit :=
  [.add pathRule, .toggle ⟨"7", ⟨13.375, 52.5⟩, "Gate", "monument"⟩, .remove "paths"]

theorem nodup_revisions_late :
    (Revision.next^[1] lateStyle.revision ≠ Revision.next^[3] lateStyle.revision) ∧
    ∃ last, run lateStyle lateEdits = .ok last ∧
      last.revision.token = "late-18446744073709551615-2" ∧
      (history lateStyle lateEdits).length = 4 ∧
      (history lateStyle lateEdits).getLast? = some last ∧
      ((history lateStyle lateEdits).map Definition.revision).Nodup := by
  obtain ⟨hnext, hhistory⟩ := nodup_revisions
  obtain ⟨hnodup, hrun⟩ := hhistory lateStyle lateEdits
  have h : run lateStyle lateEdits = .ok _ := rfl
  obtain ⟨hlength, hlast⟩ := hrun _ h
  exact ⟨hnext lateStyle.revision 1 3 (by decide), _, h, by decide +kernel, hlength, hlast, hnodup⟩

end Edit

end MapStyle
