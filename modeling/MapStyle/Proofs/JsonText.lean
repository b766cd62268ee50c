import MapStyle.Proofs.JsonTokens

/-!
# JSON texts read back

A value that is nested no deeper than a reader allows, and whose numbers read back, reads back as a
whole, with any blanks between its tokens.
-/

namespace MapStyle.Json

mutual

/-- The number of nested arrays and objects in a value. -/
def depth : Json → Nat
  | .array items => itemsDepth items + 1
  | .object members => membersDepth members + 1
  | _ => 0

def itemsDepth : List Json → Nat
  | [] => 0
  | item :: items => max (depth item) (itemsDepth items)

def membersDepth : List (String × Json) → Nat
  | [] => 0
  | (_, value) :: members => max (depth value) (membersDepth members)

end

/-- Whether a value reads back where there is room for that many nested levels. -/
inductive Fits : Nat → Json → Prop where
  | null {room : Nat} : Fits room .null
  | bool {room : Nat} (b : Bool) : Fits room (.bool b)
  | number {room : Nat} {n : Number} (h : n.ReadsBack) : Fits room (.number n)
  | string {room : Nat} (s : String) : Fits room (.string s)
  | array {room : Nat} {items : List Json} (h : ∀ item ∈ items, Fits room item) :
      Fits (room + 1) (.array items)
  | object {room : Nat} {members : List (String × Json)} (h : ∀ m ∈ members, Fits room m.2) :
      Fits (room + 1) (.object members)

lemma fits_array_iff {room : Nat} {items : List Json} :
    Fits room (.array items) ↔ 0 < room ∧ ∀ item ∈ items, Fits (room - 1) item := by
  constructor
  · intro h
    cases h with
    | array h => exact ⟨Nat.succ_pos _, h⟩
  · rintro ⟨hroom, h⟩
    obtain ⟨room, rfl⟩ := Nat.exists_eq_add_one.mpr hroom
    exact .array h

lemma fits_object_iff {room : Nat} {members : List (String × Json)} :
    Fits room (.object members) ↔ 0 < room ∧ ∀ m ∈ members, Fits (room - 1) m.2 := by
  constructor
  · intro h
    cases h with
    | object h => exact ⟨Nat.succ_pos _, h⟩
  · rintro ⟨hroom, h⟩
    obtain ⟨room, rfl⟩ := Nat.exists_eq_add_one.mpr hroom
    exact .object h

lemma Fits.mono {room wider : Nat} {j : Json} (h : Fits room j) (hle : room ≤ wider) :
    Fits wider j := by
  induction h generalizing wider with
  | null => exact .null
  | bool b => exact .bool b
  | number h => exact .number h
  | string s => exact .string s
  | array _ ih =>
    exact fits_array_iff.mpr ⟨by omega, fun item hitem => ih item hitem (by omega)⟩
  | object _ ih => exact fits_object_iff.mpr ⟨by omega, fun m hm => ih m hm (by omega)⟩

lemma itemsDepth_le_iff {items : List Json} {n : Nat} :
    itemsDepth items ≤ n ↔ ∀ item ∈ items, item.depth ≤ n := by
  induction items with
  | nil => simp [itemsDepth]
  | cons item items ih => rw [itemsDepth, Nat.max_le, ih, List.forall_mem_cons]

lemma membersDepth_le_iff {members : List (String × Json)} {n : Nat} :
    membersDepth members ≤ n ↔ ∀ m ∈ members, m.2.depth ≤ n := by
  induction members with
  | nil => simp [membersDepth]
  | cons m members ih => rw [membersDepth, Nat.max_le, ih, List.forall_mem_cons]

lemma Fits.depth_le {room : Nat} {j : Json} (h : Fits room j) : j.depth ≤ room := by
  induction h with
  | array _ ih => exact Nat.succ_le_succ (itemsDepth_le_iff.mpr ih)
  | object _ ih => exact Nat.succ_le_succ (membersDepth_le_iff.mpr ih)
  | _ => exact Nat.zero_le _

/-! ### Blanks -/

/-- Whether nothing but blanks stands between the tokens of a text. -/
structure Spacing.Blank (s : Spacing) : Prop where
  lineBreak : ∀ depth, ∀ c ∈ s.lineBreak depth, Reader.isBlank c = true
  afterColon : ∀ c ∈ s.afterColon, Reader.isBlank c = true

lemma blank_tight : tight.Blank := by
  constructor <;> simp [tight]

lemma blank_indented : indented.Blank := by
  constructor
  · intro depth c hc
    simp only [indented, List.mem_cons, List.mem_replicate] at hc
    rcases hc with rfl | ⟨-, rfl⟩ <;> rfl
  · simp [indented, Reader.isBlank]

namespace Reader

lemma skipBlanks_append {blanks : List Char} (h : ∀ c ∈ blanks, isBlank c = true)
    (text : List Char) : skipBlanks (blanks ++ text) = skipBlanks text := by
  unfold skipBlanks
  rw [List.dropWhile_append_of_pos h]

lemma skipBlanks_cons {c : Char} (h : isBlank c = false) (text : List Char) :
    skipBlanks (c :: text) = c :: text := by
  simp [skipBlanks, h]

lemma value?_append_blanks (fuel room : Nat) {blanks : List Char}
    (h : ∀ c ∈ blanks, isBlank c = true) (text : List Char) :
    value? fuel room (blanks ++ text) = value? fuel room text := by
  cases fuel with
  | zero => rfl
  | succ fuel => rw [value?, value?, skipBlanks_append h]

/-! ### What starts and follows a value -/

lemma ends_cons {c : Char} (h : isBlank c = true ∨ c ∈ [',', ']', '\x7d']) (rest : List Char) :
    Ends (c :: rest) := by
  intro d hd
  obtain rfl : c = d := by simpa using hd
  have hc : c ∈ [' ', '\n', '\t', '\r', ',', ']', '\x7d'] := by
    simp only [isBlank, Bool.or_eq_true, beq_iff_eq] at h
    simp only [List.mem_cons, List.not_mem_nil, or_false] at h ⊢
    tauto
  have hall : ∀ d ∈ [' ', '\n', '\t', '\r', ',', ']', '\x7d'],
      d.isDigit = false ∧ d ≠ '.' ∧ d ≠ 'e' ∧ d ≠ 'E' := by
    simp
  exact hall c hc

lemma ends_append {blanks rest : List Char} (h : ∀ c ∈ blanks, isBlank c = true)
    (hrest : Ends rest) : Ends (blanks ++ rest) := by
  cases blanks with
  | nil => exact hrest
  | cons c blanks => exact ends_cons (.inl (h c List.mem_cons_self)) _

/-- A number starts like no other value. -/
lemma ne_of_numeral {c : Char} (h : c = '-' ∨ c.isDigit = true) :
    ∀ d ∈ [' ', '\n', '\t', '\r', 'n', 't', 'f', '"', '[', ']', '\x7b'], c ≠ d := by
  rintro d hd rfl
  have hall : ∀ c ∈ [' ', '\n', '\t', '\r', 'n', 't', 'f', '"', '[', ']', '\x7b'],
      ¬(c = '-' ∨ c.isDigit = true) := by
    simp
  exact hall c hd h

lemma starts_write (s : Spacing) (depth : Nat) {room : Nat} {j : Json} (h : Fits room j) :
    ∃ c rest, write s depth j = c :: rest ∧ isBlank c = false ∧ c ≠ ']' := by
  cases h with
  | null => exact ⟨_, _, rfl, rfl, by decide⟩
  | bool b => cases b <;> exact ⟨_, _, rfl, rfl, by decide⟩
  | @number _ n h =>
    obtain ⟨c, rest, hwrite, hc⟩ := starts_of_number? h
    have hne := ne_of_numeral hc
    refine ⟨c, rest, hwrite, ?_, hne ']' (by simp)⟩
    simp [isBlank, hne]
  | string text => exact ⟨_, _, rfl, rfl, by decide⟩
  | @array _ items _ => cases items <;> exact ⟨_, _, rfl, rfl, by decide⟩
  | @object _ members _ => cases members <;> exact ⟨_, _, rfl, rfl, by decide⟩

lemma value?_number {fuel room : Nat} {w r : List Char} {t : Tree} (h : number? w = some (t, r)) :
    value? (fuel + 1) room w = some (t, r) := by
  obtain ⟨c, rest, rfl, hc⟩ := starts_of_number? h
  have hne := ne_of_numeral hc
  have hblank : isBlank c = false := by simp [isBlank, hne]
  rw [value?, skipBlanks_cons hblank]
  split
  case h_7 => exact h
  all_goals
    next heq => exact absurd (List.cons.inj heq).1 (hne _ (by simp))

lemma value?_string {fuel room : Nat} (text : String) (rest : List Char) :
    value? (fuel + 1) room (quote text ++ rest) = some (.string text, rest) := by
  obtain ⟨body, hquote, hread⟩ := string?_quote text rest
  rw [hquote, value?, skipBlanks_cons (by rfl)]
  simp [hread]

/-! ### Arrays and objects -/

lemma object_some (members : List (String × Tree)) :
    object (members.map fun m => (some m.1, m.2)) = .object members := by
  have hkeys : (members.map fun m => (some m.1, m.2)).mapM (fun m => m.1.map (·, m.2)) =
      some members := by
    induction members with
    | nil => rfl
    | cons m members ih => simp [ih]
  rw [object, hkeys]

variable {s : Spacing}

/-- What has to be shown of a value: it reads back wherever it stands. -/
def ReadsAt (s : Spacing) (room : Nat) (j : Json) : Prop :=
  ∀ depth fuel rest, Ends rest → 2 * (write s depth j ++ rest).length < fuel →
    value? fuel room (write s depth j ++ rest) = some (.ofJson j, rest)

lemma items?_item {room : Nat} {item : Json} (hitem : ReadsAt s room item) (depth : Nat)
    (read : List Tree) {blanks : List Char} (hblanks : ∀ c ∈ blanks, isBlank c = true)
    {after : List Char} (hafter : Ends after) {fuel : Nat}
    (hfuel : 2 * (write s depth item ++ after).length < fuel) :
    items? (fuel + 1) room read (blanks ++ (write s depth item ++ after)) =
      match skipBlanks after with
      | ',' :: rest => items? fuel room (.ofJson item :: read) rest
      | ']' :: rest => some ((.ofJson item :: read).reverse, rest)
      | _ => none := by
  have hvalue : value? fuel room (blanks ++ (write s depth item ++ after)) =
      some (.ofJson item, after) := by
    rw [value?_append_blanks _ _ hblanks, hitem depth fuel after hafter hfuel]
  rw [items?]
  -- The matches of the two sides agree by evaluation only, so the value read becomes a variable.
  generalize value? fuel room (blanks ++ (write s depth item ++ after)) = found at hvalue
  subst hvalue
  rfl

lemma items?_write (hs : s.Blank) {room : Nat} {items : List Json}
    (hitems : ∀ item ∈ items, ReadsAt s room item) {item : Json} (hitem : ReadsAt s room item)
    (depth : Nat) (read : List Tree) {blanks close : List Char} (rest : List Char)
    (hblanks : ∀ c ∈ blanks, isBlank c = true) (hclose : ∀ c ∈ close, isBlank c = true) (fuel : Nat)
    (hfuel : 2 * (blanks ++ (write s depth item ++ (writeItems s depth items ++
      (close ++ ']' :: rest)))).length + 1 < fuel) :
    items? fuel room read (blanks ++ (write s depth item ++ (writeItems s depth items ++
      (close ++ ']' :: rest)))) = some (read.reverse ++ Tree.ofItems (item :: items), rest) := by
  obtain ⟨fuel, rfl⟩ := Nat.exists_eq_add_one.mpr (Nat.zero_lt_of_lt hfuel)
  -- On the items still to come: each one read joins those before it, and its comma takes fuel.
  induction items generalizing item read blanks fuel with
  | nil =>
    have hends := ends_append hclose (ends_cons (c := ']') (.inr (by simp)) rest)
    simp only [List.length_append, List.length_cons] at hfuel
    rw [writeItems, List.nil_append, items?_item hitem depth read hblanks hends]
    · simp [skipBlanks_append hclose, skipBlanks_cons (c := ']') (by rfl), Tree.ofItems]
    · simp only [List.length_append, List.length_cons]
      omega
  | cons next items ih =>
    simp only [List.length_append, List.length_cons, writeItems] at hfuel
    simp only [writeItems, List.cons_append, List.append_assoc]
    rw [items?_item hitem depth read hblanks (ends_cons (.inr (by simp)) _)]
    · simp only [skipBlanks_cons (c := ',') (by rfl)]
      obtain ⟨fuel, rfl⟩ := Nat.exists_eq_add_one.mpr (show 0 < fuel by omega)
      rw [ih (fun j hj => hitems j (List.mem_cons_of_mem next hj)) (hitems next List.mem_cons_self)
        _ (hs.lineBreak depth)]
      · simp [Tree.ofItems]
      · simp only [List.length_append, List.length_cons]
        omega
    · simp only [List.length_append, List.length_cons]
      omega

/-- A member before what follows it. -/
def member (s : Spacing) (depth : Nat) (m : String × Json) (after : List Char) : List Char :=
  quote m.1 ++ (':' :: (s.afterColon ++ (write s depth m.2 ++ after)))

lemma members?_member (hs : s.Blank) {room : Nat} {m : String × Json} (hm : ReadsAt s room m.2)
    (depth : Nat) (read : List (Option String × Tree)) {blanks : List Char}
    (hblanks : ∀ c ∈ blanks, isBlank c = true) {after : List Char} (hafter : Ends after)
    {fuel : Nat} (hfuel : 2 * (write s depth m.2 ++ after).length < fuel) :
    members? (fuel + 1) room read (blanks ++ member s depth m after) =
      match skipBlanks after with
      | ',' :: rest => members? fuel room ((some m.1, .ofJson m.2) :: read) rest
      | '\x7d' :: rest => some (((some m.1, .ofJson m.2) :: read).reverse, rest)
      | _ => none := by
  obtain ⟨body, hquote, hread⟩ :=
    string?_quote m.1 (':' :: (s.afterColon ++ (write s depth m.2 ++ after)))
  have hvalue : value? fuel room (s.afterColon ++ (write s depth m.2 ++ after)) =
      some (.ofJson m.2, after) := by
    rw [value?_append_blanks _ _ hs.afterColon, hm depth fuel after hafter hfuel]
  rw [members?, skipBlanks_append hblanks, member, hquote]
  simp only [skipBlanks_cons (c := '"') (by rfl), hread, skipBlanks_cons (c := ':') (by rfl)]
  generalize value? fuel room (s.afterColon ++ (write s depth m.2 ++ after)) = found at hvalue
  subst hvalue
  rfl

/-- The members of a tree with their keys, as a reader collects them. -/
def keyed (members : List (String × Json)) : List (Option String × Tree) :=
  (Tree.ofMembers members).map fun m => (some m.1, m.2)

lemma members?_write (hs : s.Blank) {room : Nat} {members : List (String × Json)}
    (hmembers : ∀ m ∈ members, ReadsAt s room m.2) {m : String × Json}
    (hm : ReadsAt s room m.2) (depth : Nat) (read : List (Option String × Tree))
    {blanks close : List Char} (rest : List Char) (hblanks : ∀ c ∈ blanks, isBlank c = true)
    (hclose : ∀ c ∈ close, isBlank c = true) (fuel : Nat)
    (hfuel : 2 * (blanks ++ member s depth m (writeMembers s depth members ++
      (close ++ '\x7d' :: rest))).length + 1 < fuel) :
    members? fuel room read (blanks ++ member s depth m (writeMembers s depth members ++
      (close ++ '\x7d' :: rest))) = some (read.reverse ++ keyed (m :: members), rest) := by
  obtain ⟨fuel, rfl⟩ := Nat.exists_eq_add_one.mpr (Nat.zero_lt_of_lt hfuel)
  induction members generalizing m read blanks fuel with
  | nil =>
    have hends := ends_append hclose (ends_cons (c := '\x7d') (.inr (by simp)) rest)
    simp only [member, List.length_append, List.length_cons] at hfuel
    rw [writeMembers, List.nil_append, members?_member hs hm depth read hblanks hends]
    · simp [skipBlanks_append hclose, skipBlanks_cons (c := '\x7d') (by rfl), keyed,
        Tree.ofMembers]
    · simp only [List.length_append, List.length_cons]
      omega
  | cons next members ih =>
    simp only [member, List.length_append, List.length_cons, writeMembers] at hfuel
    have hnext : writeMembers s depth (next :: members) ++ (close ++ '\x7d' :: rest) =
        ',' :: (s.lineBreak depth ++ member s depth next (writeMembers s depth members ++
          (close ++ '\x7d' :: rest))) := by
      simp [writeMembers, member]
    rw [hnext, members?_member hs hm depth read hblanks (ends_cons (.inr (by simp)) _)]
    · simp only [skipBlanks_cons (c := ',') (by rfl)]
      obtain ⟨fuel, rfl⟩ := Nat.exists_eq_add_one.mpr (show 0 < fuel by omega)
      rw [ih (fun j hj => hmembers j (List.mem_cons_of_mem next hj))
        (hmembers next List.mem_cons_self) _ (hs.lineBreak depth)]
      · simp [keyed, Tree.ofMembers]
      · simp only [member, List.length_append, List.length_cons]
        omega
    · simp only [member, List.length_append, List.length_cons]
      omega

lemma value?_bracket (fuel room : Nat) {blanks text : List Char} {c : Char}
    (hblanks : ∀ c ∈ blanks, isBlank c = true) (hc : isBlank c = false) (hclosing : c ≠ ']') :
    value? (fuel + 1) room ('[' :: (blanks ++ c :: text)) =
      (items? fuel (room - 1) [] (c :: text)).map fun r => (container room (.array r.1), r.2) := by
  rw [value?, skipBlanks_cons (by rfl)]
  simp only [skipBlanks_append hblanks, skipBlanks_cons hc]
  split
  · next heq => exact absurd (List.cons.inj heq).1 hclosing
  · rfl

lemma value?_brace (fuel room : Nat) {blanks text : List Char}
    (hblanks : ∀ c ∈ blanks, isBlank c = true) :
    value? (fuel + 1) room ('\x7b' :: (blanks ++ '"' :: text)) =
      (members? fuel (room - 1) [] ('"' :: text)).map fun r => (container room (object r.1), r.2) := by
  rw [value?, skipBlanks_cons (by rfl)]
  simp only [skipBlanks_append hblanks, skipBlanks_cons (c := '"') (by rfl)]
  rfl

lemma readsAt_array (hs : s.Blank) {room : Nat} {items : List Json}
    (h : ∀ item ∈ items, Fits room item) (hitems : ∀ item ∈ items, ReadsAt s room item) :
    ReadsAt s (room + 1) (.array items) := by
  intro depth fuel rest hrest hfuel
  obtain ⟨fuel, rfl⟩ := Nat.exists_eq_add_one.mpr (Nat.zero_lt_of_lt hfuel)
  cases items with
  | nil => rfl
  | cons item items =>
    obtain ⟨hfit, -⟩ := List.forall_mem_cons.mp h
    obtain ⟨hitem, hitems⟩ := List.forall_mem_cons.mp hitems
    -- The reader first looks for a closing bracket, which no item starts with.
    obtain ⟨c, after, hstart, hblank, hclosing⟩ := starts_write s (depth + 1) hfit
    have htext : write s depth (.array (item :: items)) ++ rest =
        '[' :: (s.lineBreak (depth + 1) ++ (write s (depth + 1) item ++
          (writeItems s (depth + 1) items ++ (s.lineBreak depth ++ ']' :: rest)))) := by
      simp [write]
    rw [htext] at hfuel ⊢
    simp only [List.length_append, List.length_cons] at hfuel
    have hnone : ∀ c ∈ ([] : List Char), isBlank c = true := by simp
    have hread := items?_write hs hitems hitem (depth + 1) [] rest hnone
      (hs.lineBreak depth) fuel (by
        simp only [List.length_append, List.length_cons, List.length_nil]
        omega)
    rw [List.nil_append, hstart, List.cons_append] at hread
    rw [hstart, List.cons_append, value?_bracket _ _ (hs.lineBreak (depth + 1)) hblank hclosing,
      Nat.add_sub_cancel, hread]
    simp [container, Tree.ofJson]

lemma readsAt_object (hs : s.Blank) {room : Nat} {members : List (String × Json)}
    (hmembers : ∀ m ∈ members, ReadsAt s room m.2) : ReadsAt s (room + 1) (.object members) := by
  intro depth fuel rest hrest hfuel
  obtain ⟨fuel, rfl⟩ := Nat.exists_eq_add_one.mpr (Nat.zero_lt_of_lt hfuel)
  cases members with
  | nil => rfl
  | cons m members =>
    obtain ⟨hm, hmembers⟩ := List.forall_mem_cons.mp hmembers
    have htext : write s depth (.object (m :: members)) ++ rest =
        '\x7b' :: (s.lineBreak (depth + 1) ++ member s (depth + 1) m
          (writeMembers s (depth + 1) members ++ (s.lineBreak depth ++ '\x7d' :: rest))) := by
      simp [write, member]
    rw [htext] at hfuel ⊢
    simp only [List.length_append, List.length_cons] at hfuel
    have hnone : ∀ c ∈ ([] : List Char), isBlank c = true := by simp
    have hread := members?_write hs hmembers hm (depth + 1) [] rest hnone
      (hs.lineBreak depth) fuel (by
        simp only [List.length_append, List.length_nil]
        omega)
    obtain ⟨body, hquote, -⟩ := string?_quote m.1 (':' :: (s.afterColon ++
      (write s (depth + 1) m.2 ++ (writeMembers s (depth + 1) members ++
        (s.lineBreak depth ++ '\x7d' :: rest)))))
    rw [List.nil_append, member, hquote] at hread
    rw [member, hquote, value?_brace _ _ (hs.lineBreak (depth + 1)), Nat.add_sub_cancel, hread]
    simp [container, keyed, object_some, Tree.ofJson]

/-- A value reads back from its text wherever it stands: with blanks between its tokens, before any
text that does not go on with a number, and with fuel for each character. -/
theorem readsAt_of_fits (hs : s.Blank) {room : Nat} {j : Json} (h : Fits room j) :
    ReadsAt s room j := by
  induction h with
  | array h ih => exact readsAt_array hs h ih
  | object _ ih => exact readsAt_object hs ih
  | null =>
    intro depth fuel rest _ hfuel
    obtain ⟨fuel, rfl⟩ := Nat.exists_eq_add_one.mpr (Nat.zero_lt_of_lt hfuel)
    rfl
  | bool b =>
    intro depth fuel rest _ hfuel
    obtain ⟨fuel, rfl⟩ := Nat.exists_eq_add_one.mpr (Nat.zero_lt_of_lt hfuel)
    cases b <;> rfl
  | number h =>
    intro depth fuel rest hrest hfuel
    obtain ⟨fuel, rfl⟩ := Nat.exists_eq_add_one.mpr (Nat.zero_lt_of_lt hfuel)
    exact value?_number (number?_append h hrest)
  | string text =>
    intro depth fuel rest _ hfuel
    obtain ⟨fuel, rfl⟩ := Nat.exists_eq_add_one.mpr (Nat.zero_lt_of_lt hfuel)
    exact value?_string text rest

end Reader

/-- The text of a value whose numbers read back has the tree of the value, if the value is nested no
deeper than a reader allows. -/
theorem ofText?_write {s : Spacing} (hs : s.Blank) {j : Json} (h : Fits maxDepth j) :
    Tree.ofText? (String.ofList (write s 0 j)) = some (.ofJson j) := by
  have hread := Reader.readsAt_of_fits hs h 0 (2 * (write s 0 j).length + 2) [] Reader.ends_nil
    (by rw [List.append_nil]; omega)
  rw [List.append_nil] at hread
  unfold Tree.ofText?
  rw [String.toList_ofList]
  simp only [hread]
  rfl

lemma ofText?_compact {j : Json} (h : Fits maxDepth j) :
    Tree.ofText? j.compact = some (.ofJson j) :=
  ofText?_write blank_tight h

lemma ofText?_pretty {j : Json} (h : Fits maxDepth j) :
    Tree.ofText? j.pretty = some (.ofJson j) :=
  ofText?_write blank_indented h

end MapStyle.Json
