import MapStyle.Markup
import Mathlib.Data.List.TakeDrop
import Mathlib.Data.List.TakeWhile
import Mathlib.Tactic.Lemma

/-!
# Markup read back

A reader of XML texts that knows nothing of how they are written. It splits the text at angle
brackets and tags at double quotes, undoes the five escapes, and keeps the elements that are open on
a stack. What is written of any element reads back as that element, so no text inside of it can be
taken for markup.
-/

namespace MapStyle

namespace Markup

/-! ### A reader -/

/-- The text behind escapes; an ampersand has to begin one of the five. -/
def unescape? : List Char → Option (List Char)
  | [] => some []
  | '&' :: 'a' :: 'm' :: 'p' :: ';' :: rest => (unescape? rest).map ('&' :: ·)
  | '&' :: 'l' :: 't' :: ';' :: rest => (unescape? rest).map ('<' :: ·)
  | '&' :: 'g' :: 't' :: ';' :: rest => (unescape? rest).map ('>' :: ·)
  | '&' :: 'q' :: 'u' :: 'o' :: 't' :: ';' :: rest => (unescape? rest).map ('"' :: ·)
  | '&' :: 'a' :: 'p' :: 'o' :: 's' :: ';' :: rest => (unescape? rest).map ('\'' :: ·)
  | c :: rest => if c = '&' then none else (unescape? rest).map (c :: ·)

/-- A tag that opens an element, one that closes it, or one of an element with nothing inside. -/
inductive Tag where
  | opening (name : String) (attributes : List (String × String))
  | closing (name : String)
  | single (name : String) (attributes : List (String × String))

/-- The name of an attribute, between a space and an equals sign. -/
def attributeName? : List Char → Option String
  | ' ' :: rest => if rest.getLast? = some '=' then some (String.ofList rest.dropLast) else none
  | _ => none

/-- The attributes of a tag that is split at its quotes, and what follows them. -/
def attributes? : List (List Char) → Option (List (String × String) × List Char)
  | [] => none
  | [rest] => some ([], rest)
  | name :: value :: parts => do
    let name ← attributeName? name
    let value ← unescape? value
    let (attributes, rest) ← attributes? parts
    return ((name, String.ofList value) :: attributes, rest)

/-- The tag of an element by what follows its attributes: a slash if nothing is inside. -/
def Tag.ofEnd? (name : String) (attributes : List (String × String)) : List Char → Option Tag
  | [] => some (.opening name attributes)
  | ['/'] => some (.single name attributes)
  | _ => none

def Tag.ofChars? : List Char → Option Tag
  | '/' :: name => some (.closing (String.ofList name))
  | body => do
    let (name, rest) := body.span fun c => c != ' ' && c != '/'
    let (attributes, last) ← attributes? (rest.splitOn '"')
    ofEnd? (String.ofList name) attributes last

/-- The name of elements that hold text; all others hold elements. -/
def textName : String := "text"

/-- An open element with what is inside of it so far, the latest child first. -/
structure Frame where
  name : String
  attributes : List (String × String)
  children : List Markup
  content : List Char

namespace Frame

def opened (name : String) (attributes : List (String × String)) : Frame :=
  ⟨name, attributes, [], []⟩

def holdsText (f : Frame) : Bool :=
  f.name == textName

def add (f : Frame) (child : Markup) : Frame :=
  { f with children := child :: f.children }

/-- Takes a text in; between elements only blanks are allowed, and nothing is kept of them. -/
def addText? (f : Frame) (text : List Char) : Option Frame := do
  let text ← unescape? text
  if f.holdsText then return { f with content := f.content ++ text }
  else if text.all Text.isBlank then return f
  else none

def close (f : Frame) : Markup :=
  if f.holdsText then .text f.name f.attributes (String.ofList f.content)
  else .element f.name f.attributes f.children.reverse

end Frame

/-- A text that has been read in part: the innermost open element and those around it. -/
structure Reading where
  top : Frame
  outer : List Frame

namespace Reading

def add (s : Reading) (child : Markup) : Reading :=
  { s with top := s.top.add child }

def text? (s : Reading) (text : List Char) : Option Reading :=
  (s.top.addText? text).map fun top => { s with top }

/-- Takes a tag in. Elements that hold text hold no others, and only the innermost open element may
be closed. -/
def tag? (s : Reading) : Tag → Option Reading
  | .opening name attributes =>
    if s.top.holdsText then none else some ⟨.opened name attributes, s.top :: s.outer⟩
  | .single name attributes =>
    if s.top.holdsText then none else some (s.add (Frame.opened name attributes).close)
  | .closing name =>
    match s.outer with
    | [] => none
    | parent :: outer => if s.top.name = name then some ⟨parent.add s.top.close, outer⟩ else none

/-- Takes in what stands between two opening brackets: a tag and a text. -/
def piece? (s : Reading) (piece : List Char) : Option Reading :=
  match piece.span (· != '>') with
  | (tag, '>' :: after) => do (← s.tag? (← Tag.ofChars? tag)).text? after
  | _ => none

def run? (s : Reading) (text : List Char) : Option Reading :=
  match text.splitOn '<' with
  | [] => none
  | first :: pieces => do pieces.foldlM piece? (← s.text? first)

end Reading

/-- The only element of a text, all of which has to be read and all elements closed. -/
def read? (text : String) : Option Markup := do
  let s ← Reading.run? ⟨.opened "" [], []⟩ text.toList
  match s.outer, s.top.children with
  | [], [root] => some root
  | _, _ => none

/-! ### Escapes -/

lemma unescape?_cons {c : Char} (h : c ≠ '&') (rest : List Char) :
    unescape? (c :: rest) = (unescape? rest).map (c :: ·) := by
  simp [unescape?, h]

lemma unescape?_append {chars : List Char} (h : '&' ∉ chars) (rest : List Char) :
    unescape? (chars ++ rest) = (unescape? rest).map (chars ++ ·) := by
  induction chars with
  | nil => simp
  | cons c chars ih =>
    rw [List.mem_cons, not_or] at h
    rw [List.cons_append, unescape?_cons (Ne.symm h.1), ih h.2, Option.map_map]
    rfl

lemma unescape?_escape (c : Char) (rest : List Char) :
    unescape? (escape c ++ rest) = (unescape? rest).map (c :: ·) := by
  unfold escape
  split_ifs with hamp hless hgreater hquote happos
  · rw [hamp]
    rfl
  · rw [hless]
    rfl
  · rw [hgreater]
    rfl
  · rw [hquote]
    rfl
  · rw [happos]
    rfl
  · exact unescape?_cons hamp rest

lemma unescape?_escaped_append (text : String) (rest : List Char) :
    unescape? (escaped text ++ rest) = (unescape? rest).map (text.toList ++ ·) := by
  unfold escaped
  induction text.toList with
  | nil => simp
  | cons c cs ih =>
    rw [List.flatMap_cons, List.append_assoc, unescape?_escape, ih, Option.map_map]
    rfl

lemma unescape?_escaped (text : String) : unescape? (escaped text) = some text.toList := by
  have h := unescape?_escaped_append text []
  simpa [unescape?] using h

/-- The characters between which a tag stands. -/
def brackets : List Char := ['<', '>']

/-- The characters that end a name, a value or a text. -/
def stops : List Char := brackets ++ ['"']

lemma mem_brackets_iff {c : Char} : c ∈ brackets ↔ c = '<' ∨ c = '>' := by
  simp [brackets]

lemma mem_stops_of_brackets {c : Char} (h : c ∈ brackets) : c ∈ stops :=
  List.mem_append_left _ h

lemma not_mem_escape {stop : Char} (h : stop ∈ stops) (c : Char) : stop ∉ escape c := by
  have hcases : stop = '<' ∨ stop = '>' ∨ stop = '"' := by
    simpa [stops, brackets, or_assoc] using h
  unfold escape
  split_ifs with hamp hless hgreater hquote happos
  · rcases hcases with rfl | rfl | rfl <;> decide
  · rcases hcases with rfl | rfl | rfl <;> decide
  · rcases hcases with rfl | rfl | rfl <;> decide
  · rcases hcases with rfl | rfl | rfl <;> decide
  · rcases hcases with rfl | rfl | rfl <;> decide
  · intro hmem
    obtain rfl := List.mem_singleton.mp hmem
    simp [hless, hgreater, hquote] at hcases

lemma not_mem_escaped {stop : Char} (h : stop ∈ stops) (text : String) :
    stop ∉ escaped text := by
  intro hmem
  obtain ⟨c, -, hc⟩ := List.mem_flatMap.mp hmem
  exact not_mem_escape h c hc

/-! ### Tags -/

/-- Whether a text may be the name of an element or an attribute. -/
def IsName (name : String) : Prop :=
  name ≠ "" ∧ ∀ c ∈ name.toList, c ∉ ' ' :: '/' :: stops

instance (name : String) : Decidable (IsName name) :=
  have : Decidable (∀ c ∈ name.toList, c ∉ ' ' :: '/' :: stops) := List.decidableBAll _ _
  instDecidableAnd

lemma IsName.not_mem {name : String} (h : IsName name) {c : Char} (hc : c ∈ ' ' :: '/' :: stops) :
    c ∉ name.toList :=
  fun hmem => h.2 c hmem hc

lemma IsName.not_mem_of_stops {name : String} (h : IsName name) {stop : Char}
    (hstop : stop ∈ stops) : stop ∉ name.toList :=
  h.not_mem (List.mem_cons_of_mem _ (List.mem_cons_of_mem _ hstop))

lemma attributeName?_label (name : String) :
    attributeName? (' ' :: name.toList ++ ['=']) = some name := by
  rw [List.cons_append, attributeName?, if_pos (by simp), List.dropLast_concat,
    String.ofList_toList]

lemma writeAttributes_cons_append (a : String × String) (attributes : List (String × String))
    (rest : List Char) :
    writeAttributes (a :: attributes) ++ rest = (' ' :: a.1.toList ++ ['=']) ++
      '"' :: (escaped a.2 ++ '"' :: (writeAttributes attributes ++ rest)) := by
  simp [writeAttributes]

lemma attributes?_writeAttributes {attributes : List (String × String)}
    (h : ∀ a ∈ attributes, IsName a.1) {rest : List Char} (hrest : '"' ∉ rest) :
    attributes? ((writeAttributes attributes ++ rest).splitOn '"') = some (attributes, rest) := by
  induction attributes with
  | nil =>
    have hnil : writeAttributes [] ++ rest = rest := rfl
    rw [hnil, List.splitOn_eq_singleton hrest, attributes?]
  | cons a attributes ih =>
    obtain ⟨ha, hothers⟩ := List.forall_mem_cons.mp h
    have hname : '"' ∉ ' ' :: a.1.toList ++ ['='] := by
      simpa using ha.not_mem (c := '"') (by decide)
    have hvalue : '"' ∉ escaped a.2 := not_mem_escaped (by decide) a.2
    rw [writeAttributes_cons_append, List.splitOn_append_cons_self_of_not_mem hname,
      List.splitOn_append_cons_self_of_not_mem hvalue, attributes?, attributeName?_label,
      unescape?_escaped, ih hothers]
    simp

lemma span_tag {name : String} (h : IsName name) (attributes : List (String × String))
    {rest : List Char} (hrest : rest = [] ∨ rest = ['/']) :
    (name.toList ++ (writeAttributes attributes ++ rest)).span (fun c => c != ' ' && c != '/') =
      (name.toList, writeAttributes attributes ++ rest) := by
  have hname : ∀ c ∈ name.toList, (c != ' ' && c != '/') = true := by
    intro c hc
    have hstop := h.2 c hc
    simp only [List.mem_cons, not_or] at hstop
    simp [hstop.1, hstop.2.1]
  have hend : ∀ c ∈ (writeAttributes attributes ++ rest).head?, (c != ' ' && c != '/') = false := by
    cases attributes with
    | nil => rcases hrest with rfl | rfl <;> simp [writeAttributes]
    | cons a attributes => simp [writeAttributes]
  rw [List.span_eq_takeWhile_dropWhile, List.takeWhile_append_of_pos hname,
    List.dropWhile_append_of_pos hname]
  cases htext : writeAttributes attributes ++ rest with
  | nil => simp
  | cons c text =>
    rw [htext] at hend
    have hc := hend c rfl
    rw [List.takeWhile_cons_of_neg (by simp [hc]), List.dropWhile_cons_of_neg (by simp [hc]),
      List.append_nil]

lemma Tag.ofChars?_tag {name : String} (h : IsName name) {attributes : List (String × String)}
    (hattributes : ∀ a ∈ attributes, IsName a.1) {rest : List Char}
    (hrest : rest = [] ∨ rest = ['/']) :
    ofChars? (name.toList ++ (writeAttributes attributes ++ rest)) =
      ofEnd? name attributes rest := by
  have hslash : ∀ text, name.toList ++ (writeAttributes attributes ++ rest) ≠ '/' :: text := by
    intro text heq
    obtain ⟨c, cs, hcs⟩ := List.exists_cons_of_ne_nil (String.toList_eq_nil_iff.not.mpr h.1)
    rw [hcs, List.cons_append, List.cons.injEq] at heq
    exact h.not_mem (c := '/') (by decide) (heq.1 ▸ hcs ▸ List.mem_cons_self)
  have hquote : '"' ∉ rest := by
    rcases hrest with rfl | rfl <;> decide
  rw [ofChars?.eq_2 _ hslash, span_tag h attributes hrest]
  simp [attributes?_writeAttributes hattributes hquote]

lemma Tag.ofChars?_closing (name : String) :
    ofChars? ('/' :: name.toList) = some (.closing name) := by
  rw [ofChars?, String.ofList_toList]

/-! ### Steps of a reading -/

lemma splitOn_append {stop : Char} {chars : List Char} (h : stop ∉ chars) (rest : List Char) :
    (chars ++ rest).splitOn stop = (rest.splitOn stop).modifyHead (chars ++ ·) := by
  induction chars with
  | nil => cases hrest : rest.splitOn stop <;> simp [hrest]
  | cons c chars ih =>
    have hc : ¬(c == stop) = true := by
      intro heq
      exact h (beq_iff_eq.mp heq ▸ List.mem_cons_self)
    rw [List.cons_append, List.splitOn_cons_eq_if_modifyHead, if_neg hc,
      ih fun hmem => h (List.mem_cons_of_mem c hmem), List.modifyHead_modifyHead]
    rfl

namespace Reading

variable {s : Reading}

lemma text?_nil (s : Reading) : s.text? [] = some s := by
  cases h : s.top.holdsText with
  | false =>
    -- the simp set would turn the test of the empty text into one of all characters there are
    simp only [text?, Frame.addText?, unescape?, h, Option.bind_eq_bind, Option.bind_some,
      List.all_nil, Bool.false_eq_true, if_false, if_true]
    rfl
  | true => simp [text?, Frame.addText?, unescape?, h]

/-- Text in front of a tag goes to the element around both. -/
lemma run?_text {chars : List Char} (h : '<' ∉ chars) (rest : List Char) :
    s.run? (chars ++ '<' :: rest) = (s.text? chars).bind fun s => s.run? ('<' :: rest) := by
  have hsplit : ('<' :: rest).splitOn '<' = [] :: rest.splitOn '<' := by
    rw [List.splitOn_cons_eq_if_modifyHead, if_pos (beq_self_eq_true _)]
  unfold run?
  simp only [List.splitOn_append_cons_self_of_not_mem h, hsplit, text?_nil]
  rfl

lemma run?_tag {tag : List Char} (hless : '<' ∉ tag) (hgreater : '>' ∉ tag) (rest : List Char) :
    s.run? ('<' :: tag ++ '>' :: rest) =
      (Tag.ofChars? tag).bind fun t => (s.tag? t).bind fun s => s.run? rest := by
  have htag : ∀ c ∈ tag, (c != '>') = true :=
    fun c hc => bne_iff_ne.mpr (ne_of_mem_of_not_mem hc hgreater)
  -- the text after the tag, up to the next bracket, is still in the same piece
  obtain ⟨first, pieces, hrest⟩ := List.exists_cons_of_ne_nil (List.splitOn_ne_nil '<' rest)
  have hsplit : ('<' :: tag ++ '>' :: rest).splitOn '<' =
      [] :: (tag ++ '>' :: first) :: pieces := by
    rw [List.cons_append, List.splitOn_cons_eq_if_modifyHead, if_pos (beq_self_eq_true _),
      splitOn_append hless, List.splitOn_cons_eq_if_modifyHead, if_neg (by decide), hrest]
    rfl
  have hspan : (tag ++ '>' :: first).span (· != '>') = (tag, '>' :: first) := by
    rw [List.span_eq_takeWhile_dropWhile, List.takeWhile_append_of_pos htag,
      List.dropWhile_append_of_pos htag]
    simp
  unfold run?
  simp only [hsplit, hrest, text?_nil, Option.bind_eq_bind, Option.bind_some, List.foldlM_cons,
    piece?, hspan, Option.bind_assoc]

lemma run?_blanks (hs : s.top.holdsText = false) {blanks : List Char}
    (h : ∀ c ∈ blanks, c = ' ' ∨ c = '\n') (rest : List Char) :
    s.run? (blanks ++ rest) = s.run? rest := by
  have hless : '<' ∉ blanks := fun hmem => absurd (h '<' hmem) (by decide)
  have hamp : '&' ∉ blanks := fun hmem => absurd (h '&' hmem) (by decide)
  have hblank : blanks.all Text.isBlank = true := by
    rw [List.all_eq_true]
    intro c hc
    rcases h c hc with rfl | rfl <;> decide
  have htext : ∀ text, s.text? (blanks ++ text) = s.text? text := by
    intro text
    simp only [text?, Frame.addText?, unescape?_append hamp, hs]
    cases unescape? text with
    | none => rfl
    | some chars => simp only [Option.map_some, Option.bind_eq_bind, Option.bind_some,
        List.all_append, hblank, Bool.true_and, Bool.false_eq_true, if_false]
  obtain ⟨first, pieces, hrest⟩ := List.exists_cons_of_ne_nil (List.splitOn_ne_nil '<' rest)
  unfold run?
  rw [splitOn_append hless, hrest, List.modifyHead_cons]
  simp only [htext]

end Reading

/-! ### What is written reads back -/

/-- Whether the reader tells all parts of an element apart: names are names, text stands in the
elements that hold text and in no others, and nothing is written as it is. -/
inductive Readable : Markup → Prop where
  | element {name : String} {attributes : List (String × String)} {children : List Markup}
      (hname : IsName name) (hkind : name ≠ textName) (hattributes : ∀ a ∈ attributes, IsName a.1)
      (hchildren : ∀ child ∈ children, Readable child) :
      Readable (.element name attributes children)
  | text {attributes : List (String × String)} {content : String}
      (hattributes : ∀ a ∈ attributes, IsName a.1) : Readable (.text textName attributes content)

/-- Whether reading what is written of an element between others adds the element to them. -/
def ReadsBack (m : Markup) : Prop :=
  ∀ (depth : Nat) (s : Reading) (rest : List Char), s.top.holdsText = false →
    s.run? (write depth m ++ rest) = (s.add m).run? rest

lemma not_mem_writeAttributes {attributes : List (String × String)}
    (h : ∀ a ∈ attributes, IsName a.1) {stop : Char} (hstop : stop ∈ brackets) :
    stop ∉ writeAttributes attributes := by
  intro hmem
  obtain ⟨a, ha, hc⟩ := List.mem_flatMap.mp hmem
  have hname : stop ∉ a.1.toList := (h a ha).not_mem_of_stops (mem_stops_of_brackets hstop)
  have hvalue : stop ∉ escaped a.2 := not_mem_escaped (mem_stops_of_brackets hstop) a.2
  rcases mem_brackets_iff.mp hstop with rfl | rfl <;> simp [hname, hvalue] at hc

namespace Reading

variable {s : Reading} {name : String} {attributes : List (String × String)}

lemma run?_newline (hs : s.top.holdsText = false) (rest : List Char) :
    s.run? ('\n' :: rest) = s.run? rest := by
  have hblank : ∀ c ∈ ['\n'], c = ' ' ∨ c = '\n' := by simp
  exact run?_blanks hs hblank rest

lemma run?_indent (hs : s.top.holdsText = false) (depth : Nat) (rest : List Char) :
    s.run? (indent depth ++ rest) = s.run? rest :=
  run?_blanks hs (fun _ hc => .inl (List.eq_of_mem_replicate hc)) rest

lemma run?_element (hname : IsName name) (hattributes : ∀ a ∈ attributes, IsName a.1)
    {last : List Char} (hlast : last = [] ∨ last = ['/']) (rest : List Char) :
    s.run? (openTag name attributes ++ (last ++ '>' :: rest)) =
      (Tag.ofEnd? name attributes last).bind fun t => (s.tag? t).bind fun s => s.run? rest := by
  have hend : ∀ stop ∈ brackets, stop ∉ last := by
    intro stop hmem
    rcases mem_brackets_iff.mp hmem with rfl | rfl <;> rcases hlast with rfl | rfl <;> decide
  have hstop : ∀ stop ∈ brackets, stop ∉ name.toList ++ (writeAttributes attributes ++ last) := by
    intro stop hmem
    have hin := hname.not_mem_of_stops (mem_stops_of_brackets hmem)
    simp [hin, hend stop hmem, not_mem_writeAttributes hattributes hmem]
  have htext : openTag name attributes ++ (last ++ '>' :: rest) =
      '<' :: (name.toList ++ (writeAttributes attributes ++ last)) ++ '>' :: rest := by
    simp [openTag]
  rw [htext, run?_tag (hstop '<' (by decide)) (hstop '>' (by decide)),
    Tag.ofChars?_tag hname hattributes hlast]

lemma run?_opening (hs : s.top.holdsText = false) (hname : IsName name)
    (hattributes : ∀ a ∈ attributes, IsName a.1) (rest : List Char) :
    s.run? (openTag name attributes ++ '>' :: rest) =
      run? ⟨.opened name attributes, s.top :: s.outer⟩ rest := by
  have h := run?_element (s := s) hname hattributes (.inl rfl) rest
  simpa [Tag.ofEnd?, tag?, hs] using h

lemma run?_single (hs : s.top.holdsText = false) (hname : IsName name)
    (hattributes : ∀ a ∈ attributes, IsName a.1) (rest : List Char) :
    s.run? (openTag name attributes ++ '/' :: '>' :: rest) =
      (s.add (Frame.opened name attributes).close).run? rest := by
  have h := run?_element (s := s) hname hattributes (.inr rfl) rest
  simpa [Tag.ofEnd?, tag?, hs] using h

lemma run?_closing {f parent : Frame} {outer : List Frame} (hname : IsName f.name)
    (hparent : parent.holdsText = false) (rest : List Char) :
    run? ⟨f, parent :: outer⟩ (closeTag f.name ++ rest) =
      run? ⟨parent.add f.close, outer⟩ rest := by
  have hless : '<' ∉ '/' :: f.name.toList := by
    simpa using hname.not_mem (c := '<') (by decide)
  have hgreater : '>' ∉ '/' :: f.name.toList := by
    simpa using hname.not_mem (c := '>') (by decide)
  have htext : closeTag f.name ++ rest = '<' :: ('/' :: f.name.toList) ++ '>' :: '\n' :: rest := by
    simp [closeTag]
  rw [htext, run?_tag hless hgreater, Tag.ofChars?_closing, Option.bind_some, tag?]
  simp only [if_pos, Option.bind_some]
  exact run?_newline hparent rest

lemma run?_writeAll {children : List Markup} (h : ∀ child ∈ children, ReadsBack child)
    (hs : s.top.holdsText = false) (depth : Nat) (rest : List Char) :
    s.run? (writeAll depth children ++ rest) = (children.foldl add s).run? rest := by
  induction children generalizing s with
  | nil => rfl
  | cons child children ih =>
    obtain ⟨hchild, hothers⟩ := List.forall_mem_cons.mp h
    rw [writeAll, List.append_assoc, hchild depth s _ hs, List.foldl_cons]
    exact ih hothers hs

lemma foldl_add (s : Reading) (children : List Markup) :
    children.foldl add s =
      ⟨{ s.top with children := children.reverse ++ s.top.children }, s.outer⟩ := by
  induction children generalizing s with
  | nil => rfl
  | cons child children ih =>
    rw [List.foldl_cons, ih]
    simp [add, Frame.add]

lemma run?_children {children : List Markup} (h : ∀ child ∈ children, ReadsBack child)
    (hname : IsName name) (hkind : name ≠ textName) (hs : s.top.holdsText = false)
    (inner depth : Nat) (rest : List Char) :
    run? ⟨.opened name attributes, s.top :: s.outer⟩
        ('\n' :: (writeAll inner children ++ (indent depth ++ (closeTag name ++ rest)))) =
      (s.add (.element name attributes children)).run? rest := by
  have htop : (Frame.opened name attributes).holdsText = false := by
    simpa [Frame.opened, Frame.holdsText] using hkind
  have hclose : Frame.close ⟨name, attributes, children.reverse ++ [], []⟩ =
      .element name attributes children := by
    simp [Frame.close, Frame.holdsText, hkind]
  rw [run?_newline htop, run?_writeAll h htop, foldl_add, run?_indent htop]
  simp only [Frame.opened]
  rw [run?_closing (f := ⟨name, attributes, _, _⟩) hname hs, hclose]
  rfl

end Reading

open Reading

/-- Every readable element reads back from what is written of it. -/
theorem Readable.readsBack {m : Markup} (h : Readable m) : ReadsBack m := by
  induction h with
  | @element name attributes children hname hkind hattributes hchildren ih =>
    intro depth s rest hs
    -- without children the element is a single tag, and nothing is pushed on the stack
    cases children with
    | nil =>
      have hclose : (Frame.opened name attributes).close = .element name attributes [] := by
        simp [Frame.close, Frame.opened, Frame.holdsText, hkind]
      have htext : write depth (.element name attributes []) ++ rest =
          indent depth ++ (openTag name attributes ++ '/' :: '>' :: '\n' :: rest) := by
        simp [write]
      rw [htext, run?_indent hs, run?_single hs hname hattributes, hclose]
      exact run?_newline (s := s.add _) hs rest
    | cons child children =>
      have htext : write depth (.element name attributes (child :: children)) ++ rest =
          indent depth ++ (openTag name attributes ++ '>' :: '\n' ::
            (writeAll (depth + 1) (child :: children) ++
              (indent depth ++ (closeTag name ++ rest)))) := by
        simp [write, writeAll]
      rw [htext, run?_indent hs, run?_opening hs hname hattributes,
        run?_children ih hname hkind hs]
  | @text attributes content hattributes =>
    intro depth s rest hs
    have hname : IsName textName := by decide
    have hless : '<' ∉ escaped content := not_mem_escaped (by decide) content
    have htext : write depth (.text textName attributes content) ++ rest =
        indent depth ++ (openTag textName attributes ++ '>' ::
          (escaped content ++ '<' :: ('/' :: textName.toList ++ '>' :: '\n' :: rest))) := by
      simp [write, closeTag]
    -- the content is read at the bracket that ends it, so the tag that closes is read after it
    have hclosing : '<' :: ('/' :: textName.toList ++ '>' :: '\n' :: rest) =
        closeTag textName ++ rest := by
      simp [closeTag]
    have hcontent : Reading.text? ⟨.opened textName attributes, s.top :: s.outer⟩
        (escaped content) =
          some ⟨⟨textName, attributes, [], content.toList⟩, s.top :: s.outer⟩ := by
      simp [text?, Frame.addText?, Frame.opened, Frame.holdsText, unescape?_escaped]
    rw [htext, run?_indent hs, run?_opening hs hname hattributes, run?_text hless, hcontent,
      Option.bind_some, hclosing,
      run?_closing (f := ⟨textName, attributes, [], content.toList⟩) hname hs]
    have hclose : Frame.close ⟨textName, attributes, [], content.toList⟩ =
        .text textName attributes content := by
      simp [Frame.close, Frame.holdsText]
    rw [hclose]
    rfl

/-- A document reads back as its root element with what is inside. -/
theorem read?_document {name : String} (hname : IsName name) (hkind : name ≠ textName)
    {attributes : List (String × String)} (hattributes : ∀ a ∈ attributes, IsName a.1)
    {children : List Markup} (h : ∀ child ∈ children, Readable child) :
    read? (document name attributes children) = some (.element name attributes children) := by
  have hstart : (Frame.opened "" []).holdsText = false := by decide
  have htext : (document name attributes children).toList =
      openTag name attributes ++ '>' :: '\n' ::
        (writeAll 1 children ++ (indent 0 ++ (closeTag name ++ []))) := by
    simp [document, indent]
  have hend : ∀ s : Reading, s.run? [] = some s := by
    intro s
    simp [run?, text?_nil]
  rw [read?, htext, run?_opening (s := ⟨.opened "" [], []⟩) hstart hname hattributes,
    run?_children (s := ⟨.opened "" [], []⟩) (fun child hchild => (h child hchild).readsBack) hname
      hkind hstart, hend]
  rfl

end Markup

end MapStyle
