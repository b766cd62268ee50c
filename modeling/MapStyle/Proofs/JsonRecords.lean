import MapStyle.Json.Record
import MapStyle.Proofs.JsonText
import MapStyle.Proofs.ListsOfResults
import Mathlib.Data.List.Basic

/-!
# Values, lists and records from their trees

What the tree of a value decodes to: the value itself if its objects are in key order, and a list, a
dictionary or the fields of a record if the parts decode.
-/

namespace MapStyle

namespace Dictionary

variable {β : Type}

lemma insertEntry_of_lt {key : String} (value : β) {es : List (String × β)}
    (h : ∀ e ∈ es, e.1 < key) : insertEntry key value es = es ++ [(key, value)] := by
  induction es with
  | nil => rfl
  | cons e es ih =>
    obtain ⟨hlt, hes⟩ := List.forall_mem_cons.mp h
    rw [insertEntry, if_neg (String.lt_asymm hlt), if_pos hlt, ih hes, List.cons_append]

lemma entries_foldl_insert {es : List (String × β)} (d : Dictionary β)
    (h : (d.entries ++ es).Pairwise fun a b => a.1 < b.1) :
    (es.foldl (fun d p => d.insert p.1 p.2) d).entries = d.entries ++ es := by
  induction es generalizing d with
  | nil => simp
  | cons e es ih =>
    have hlast : (d.insert e.1 e.2).entries = d.entries ++ [e] := by
      rw [entries_insert, insertEntry_of_lt]
      intro a ha
      exact (List.pairwise_append.mp h).2.2 a ha e List.mem_cons_self
    rw [List.foldl_cons, ih, hlast, List.append_assoc, List.singleton_append]
    rwa [hlast, List.append_assoc, List.singleton_append]

lemma entries_ofList {es : List (String × β)} (h : es.Pairwise fun a b => a.1 < b.1) :
    (ofList es).entries = es :=
  entries_foldl_insert empty h

lemma ofList_entries (d : Dictionary β) : ofList d.entries = d :=
  ext_entries (entries_ofList d.sorted)

lemma mem_insertEntry {key : String} {value : β} {es : List (String × β)} {e : String × β}
    (h : e ∈ insertEntry key value es) : e = (key, value) ∨ e ∈ es := by
  induction es with
  | nil => simpa [insertEntry] using h
  | cons a es ih =>
    rw [insertEntry] at h
    split at h
    · simpa using h
    · split at h
      · rcases List.mem_cons.mp h with rfl | h
        · exact .inr List.mem_cons_self
        · exact (ih h).imp_right (List.mem_cons_of_mem a)
      · exact (List.mem_cons.mp h).imp_right (List.mem_cons_of_mem a)

lemma mem_foldl_insert {es : List (String × β)} {d : Dictionary β} {e : String × β}
    (h : e ∈ (es.foldl (fun d p => d.insert p.1 p.2) d).entries) : e ∈ es ∨ e ∈ d.entries := by
  induction es generalizing d with
  | nil => exact .inr h
  | cons a es ih =>
    rcases ih h with h | h
    · exact .inl (List.mem_cons_of_mem a h)
    · rcases mem_insertEntry h with rfl | h
      · exact .inl List.mem_cons_self
      · exact .inr h

lemma mem_of_mem_ofList {es : List (String × β)} {e : String × β} (h : e ∈ (ofList es).entries) :
    e ∈ es :=
  (mem_foldl_insert h).resolve_right (by simp [empty])

end Dictionary

namespace Json

/-- Whether every object in a value has its members in strict key order. -/
inductive Ordered : Json → Prop where
  | null : Ordered .null
  | bool (b : Bool) : Ordered (.bool b)
  | number (n : Number) : Ordered (.number n)
  | string (s : String) : Ordered (.string s)
  | array {items : List Json} (h : ∀ item ∈ items, Ordered item) : Ordered (.array items)
  | object {members : List (String × Json)} (hkeys : members.Pairwise fun a b => a.1 < b.1)
      (h : ∀ m ∈ members, Ordered m.2) : Ordered (.object members)

namespace Tree

lemma ofItems_eq_map (items : List Json) : ofItems items = items.map ofJson := by
  induction items with
  | nil => rfl
  | cons item items ih => rw [ofItems, ih, List.map_cons]

lemma ofMembers_eq_map (members : List (String × Json)) :
    ofMembers members = members.map fun m => (m.1, ofJson m.2) := by
  induction members with
  | nil => rfl
  | cons m members ih => rw [ofMembers, ih, List.map_cons]

lemma lookup_ofMembers (members : List (String × Json)) (key : String) :
    (ofMembers members).lookup key = (members.lookup key).map ofJson := by
  induction members with
  | nil => rfl
  | cons m members ih =>
    rw [ofMembers, Dictionary.lookup_cons_eq, Dictionary.lookup_cons_eq, ih]
    split <;> rfl

/-! ### Values -/

mutual

theorem exists_value?_ofJson : ∀ j, ∃ k, value? (ofJson j) = some k
  | .null => ⟨_, rfl⟩
  | .bool _ => ⟨_, rfl⟩
  | .number _ => ⟨_, rfl⟩
  | .string _ => ⟨_, rfl⟩
  | .array items => by
    obtain ⟨ks, hks⟩ := exists_values?_ofItems items
    exact ⟨_, by rw [ofJson, value?, hks]; rfl⟩
  | .object members => by
    obtain ⟨ks, hks⟩ := exists_memberValues?_ofMembers members
    exact ⟨_, by rw [ofJson, value?, hks]; rfl⟩

theorem exists_values?_ofItems : ∀ items, ∃ ks, values? (ofItems items) = some ks
  | [] => ⟨_, rfl⟩
  | item :: items => by
    obtain ⟨k, hk⟩ := exists_value?_ofJson item
    obtain ⟨ks, hks⟩ := exists_values?_ofItems items
    exact ⟨_, by rw [ofItems, values?, hk, hks]; rfl⟩

theorem exists_memberValues?_ofMembers :
    ∀ members, ∃ ks, memberValues? (ofMembers members) = some ks
  | [] => ⟨_, rfl⟩
  | (key, item) :: members => by
    obtain ⟨k, hk⟩ := exists_value?_ofJson item
    obtain ⟨ks, hks⟩ := exists_memberValues?_ofMembers members
    exact ⟨_, by rw [ofMembers, memberValues?, hk, hks]; rfl⟩

end

lemma values?_ofItems {items : List Json} (h : ∀ item ∈ items, value? (ofJson item) = some item) :
    values? (ofItems items) = some items := by
  induction items with
  | nil => rfl
  | cons item items ih =>
    obtain ⟨hitem, hitems⟩ := List.forall_mem_cons.mp h
    rw [ofItems, values?, hitem, ih hitems]
    rfl

lemma memberValues?_ofMembers {members : List (String × Json)}
    (h : ∀ m ∈ members, value? (ofJson m.2) = some m.2) :
    memberValues? (ofMembers members) = some members := by
  induction members with
  | nil => rfl
  | cons m members ih =>
    obtain ⟨hm, hmembers⟩ := List.forall_mem_cons.mp h
    rw [ofMembers, memberValues?, hm, ih hmembers]
    rfl

theorem value?_ofJson {j : Json} (h : Ordered j) : value? (ofJson j) = some j := by
  induction h with
  | array _ ih => rw [ofJson, value?, values?_ofItems ih, Option.map_some]
  | object hkeys _ ih =>
    rw [ofJson, value?, memberValues?_ofMembers ih, Option.map_some,
      Dictionary.entries_ofList hkeys]
  | _ => rfl

/-! ### Lists and dictionaries -/

variable {α β : Type}

lemma list?_ofJson {decode : Tree → Option β} {encode : α → Json} {g : α → β} {xs : List α}
    (h : ∀ x ∈ xs, decode (ofJson (encode x)) = some (g x)) :
    list? decode (ofJson (.array (xs.map encode))) = some (xs.map g) := by
  rw [ofJson, list?, ofItems_eq_map, List.map_map]
  exact mapM_map_eq_some h

lemma dictionary?_ofJson (decode : Tree → Option α) (encode : α → Json) (d : Dictionary α)
    (h : ∀ e ∈ d.entries, decode (ofJson (encode e.2)) = some e.2) :
    dictionary? decode (ofJson (.object (d.entries.map fun e => (e.1, encode e.2)))) = some d := by
  have hentries : ((d.entries.map fun e => (e.1, ofJson (encode e.2))).mapM
      fun m => (decode m.2).map (m.1, ·)) = some (d.entries.map id) := by
    apply mapM_map_eq_some
    intro e he
    rw [h e he]
    rfl
  rw [ofJson, dictionary?, ofMembers_eq_map, List.map_map]
  change (Option.map _ ((d.entries.map fun e => (e.1, ofJson (encode e.2))).mapM _)) = _
  rw [hentries, List.map_id, Option.map_some, Dictionary.ofList_entries]

end Tree

/-! ### Records -/

/-- The members of a record, of which those without a value are left out. -/
def present (slots : List (String × Option Json)) : List (String × Json) :=
  slots.filterMap fun s => s.2.map (s.1, ·)

lemma keys_present (slots : List (String × Option Json)) :
    ((present slots).map Prod.fst).Sublist (slots.map Prod.fst) := by
  induction slots with
  | nil => exact .slnil
  | cons s slots ih =>
    obtain ⟨name, x⟩ := s
    cases x with
    | none => exact ih.cons name
    | some j => exact ih.cons_cons name

lemma lookup_present {slots : List (String × Option Json)} {name : String} {x : Option Json}
    (hnames : (slots.map Prod.fst).Nodup) (h : slots.lookup name = some x) :
    (present slots).lookup name = x := by
  induction slots with
  | nil => cases h
  | cons s slots ih =>
    obtain ⟨key, y⟩ := s
    obtain ⟨hnew, hnames⟩ := List.nodup_cons.mp hnames
    have hcons : (present ((key, y) :: slots)).lookup name =
        if name = key then y else (present slots).lookup name := by
      cases y with
      | some j => exact Dictionary.lookup_cons_eq name key j (present slots)
      | none =>
        split
        · next hname =>
          rw [hname, List.lookup_eq_none_iff.mpr]
          intro p hp
          have hmem := (keys_present slots).subset (List.mem_map_of_mem hp)
          rw [bne_iff_ne]
          exact fun heq => hnew (heq ▸ hmem)
        · rfl
    rw [Dictionary.lookup_cons_eq] at h
    rw [hcons]
    split at h
    · next hname => rw [if_pos hname, Option.some.inj h]
    · next hname => rw [if_neg hname, ih hnames h]

lemma fits_present {room : Nat} {slots : List (String × Option Json)}
    (h : ∀ s ∈ slots, ∀ j ∈ s.2, Fits room j) : Fits (room + 1) (.object (present slots)) := by
  apply Fits.object
  intro m hm
  obtain ⟨s, hs, hmap⟩ := List.mem_filterMap.mp hm
  obtain ⟨j, hj, rfl⟩ := Option.map_eq_some_iff.mp hmap
  exact h s hs j hj

namespace Fields

variable {α β : Type} {slots : List (String × Option Json)} {name : String}

lemma ofMembers?_ofMembers {names : List String} (closed : Bool) {members : List (String × Json)}
    (hknown : ∀ m ∈ members, m.1 ∈ names) (hkeys : (members.map Prod.fst).Nodup) :
    ofMembers? names closed (Tree.ofMembers members) = some (Tree.ofMembers members) := by
  induction members with
  | nil => rfl
  | cons m members ih =>
    obtain ⟨hm, hmembers⟩ := List.forall_mem_cons.mp hknown
    obtain ⟨hnew, hkeys⟩ := List.nodup_cons.mp hkeys
    have hfirst : m.1 ∉ (Tree.ofMembers members).map Prod.fst := by
      simpa [Tree.ofMembers_eq_map] using hnew
    rw [Tree.ofMembers, ofMembers?, ih hmembers hkeys]
    simp [hm, hfirst]

lemma ofTree?_present {names : List String} (closed : Bool) (hslots : slots.map Prod.fst = names)
    (hnames : names.Nodup) :
    ofTree? names closed (.ofJson (.object (present slots))) =
      some (Tree.ofMembers (present slots)) := by
  have hkeys := keys_present slots
  rw [hslots] at hkeys
  rw [Tree.ofJson, ofTree?]
  exact ofMembers?_ofMembers closed (fun m hm => hkeys.subset (List.mem_map_of_mem hm))
    (hkeys.nodup hnames)

lemma required?_present (decode : Tree → Option α) {j : Json}
    (h : slots.lookup name = some (some j)) (hnames : (slots.map Prod.fst).Nodup) :
    required? (Tree.ofMembers (present slots)) name decode = decode (.ofJson j) := by
  rw [required?, Tree.lookup_ofMembers, lookup_present hnames h]
  rfl

lemma withDefault?_present (default : α) (decode : Tree → Option α) {x : Option Json}
    (h : slots.lookup name = some x) (hnames : (slots.map Prod.fst).Nodup) :
    withDefault? (Tree.ofMembers (present slots)) name default decode =
      (x.map fun j => decode (.ofJson j)).getD (some default) := by
  rw [withDefault?, Tree.lookup_ofMembers, lookup_present hnames h]
  cases x <;> rfl

/-- A member that is there for some and left out for none reads back. -/
lemma optional?_present {x : Option α} {encode : α → Json} {decode : Tree → Option β} {g : α → β}
    (hdecode : ∀ a ∈ x, encode a ≠ .null ∧ decode (.ofJson (encode a)) = some (g a))
    (h : slots.lookup name = some (x.map encode)) (hnames : (slots.map Prod.fst).Nodup) :
    withDefault? (Tree.ofMembers (present slots)) name none (Tree.nullable? decode) =
      some (x.map g) := by
  rw [withDefault?_present none _ h hnames]
  cases x with
  | none => rfl
  | some a =>
    obtain ⟨hnull, ha⟩ := hdecode a rfl
    have hnullable : Tree.nullable? decode (.ofJson (encode a)) =
        (decode (.ofJson (encode a))).map some := by
      cases hj : encode a with
      | null => exact absurd hj hnull
      | _ => rfl
    rw [Option.map_some, Option.map_some, Option.getD_some, hnullable, ha]
    rfl

lemma optional?_present_self {x : Option α} {encode : α → Json} {decode : Tree → Option α}
    (hdecode : ∀ a ∈ x, encode a ≠ .null ∧ decode (.ofJson (encode a)) = some a)
    (h : slots.lookup name = some (x.map encode)) (hnames : (slots.map Prod.fst).Nodup) :
    withDefault? (Tree.ofMembers (present slots)) name none (Tree.nullable? decode) = some x := by
  have hx := optional?_present (g := id) hdecode h hnames
  rwa [Option.map_id, id] at hx

lemma optionalText?_present {x : Option String} (h : slots.lookup name = some (x.map .string))
    (hnames : (slots.map Prod.fst).Nodup) :
    withDefault? (Tree.ofMembers (present slots)) name none (Tree.nullable? Tree.string?) =
      some x := by
  have hdecode : ∀ s ∈ x, Json.string s ≠ .null ∧ Tree.string? (.ofJson (.string s)) = some s :=
    fun _ _ => ⟨nofun, rfl⟩
  exact optional?_present_self hdecode h hnames

end Fields

end Json

end MapStyle
