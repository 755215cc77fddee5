import ExprLang.Proofs.Number.ReadBack
import ExprLang.Proofs.Token.Spelling
import ExprLang.Tree.Printer

/-!
# Printed forms

The text of a node tells which node it is. Names and numbers have no blank,
parenthesis or colon in them, so they reach up to the next of these characters.
A node in parentheses is told from others by its keyword and, part by part, by
what stands behind it, and its text ends with its own last parenthesis.
-/

namespace ExprLang

/-! ## Delimited texts -/

section Delimited

/-- Whether a character is none of those between the parts of a printed node. -/
def isSolid (c : Char) : Bool :=
  c != ' ' && c != '(' && c != ')' && c != ':'

/-- The texts before which names and numbers end. -/
def IsDelimited (rest : List Char) : Prop :=
  ∀ c ∈ rest.head?, isSolid c = false

theorem isDelimited_nil : IsDelimited [] :=
  nofun

theorem isDelimited_cons {c : Char} {rest : List Char} (delimiter : isSolid c = false) :
    IsDelimited (c :: rest) := by
  rintro d ⟨⟩
  exact delimiter

variable {α : Type} {text : α → List Char}

/-- Whether two things are the same if their texts are, each read up to a delimiter behind it. -/
def TellsApart (text : α → List Char) (first second : α) : Prop :=
  ∀ ⦃rest rest' : List Char⦄, IsDelimited rest → IsDelimited rest' →
    text first ++ rest = text second ++ rest' → first = second ∧ rest = rest'

/-- A text without delimiters reaches up to the first of them. -/
theorem TellsApart.of_solid {first second : α} (solid : ∀ c ∈ text first, isSolid c = true)
    (solid' : ∀ c ∈ text second, isSolid c = true)
    (injective : text first = text second → first = second) : TellsApart text first second := by
  intro rest rest' stop stop' same
  have texts := congrArg (List.takeWhile isSolid) same
  have rests := congrArg (List.dropWhile isSolid) same
  rw [takeWhile_append_of_stop solid stop, takeWhile_append_of_stop solid' stop'] at texts
  rw [dropWhile_append_of_stop solid stop, dropWhile_append_of_stop solid' stop'] at rests
  exact ⟨injective texts, rests⟩

/-- In front of the same delimiter, only the same things have the same text. -/
theorem TellsApart.inj {first second : α} {c : Char} {rest rest' : List Char}
    (apart : TellsApart text first second) (delimiter : isSolid c = false)
    (same : text first ++ c :: rest = text second ++ c :: rest') :
    first = second ∧ rest = rest' := by
  obtain ⟨equal, behind⟩ := apart (isDelimited_cons delimiter) (isDelimited_cons delimiter) same
  exact ⟨equal, (List.cons.inj behind).2⟩

/-- A text behind its label. -/
def labelledText (text : α → List Char) (item : String × α) : List Char :=
  item.1.toList ++ ':' :: ' ' :: text item.2

theorem TellsApart.labelled {first second : String × α}
    (labels : TellsApart String.toList first.1 second.1)
    (items : TellsApart text first.2 second.2) : TellsApart (labelledText text) first second := by
  intro rest rest' stop stop' same
  simp only [labelledText, List.append_assoc, List.cons_append] at same
  obtain ⟨label, behind⟩ := labels.inj rfl same
  obtain ⟨item, ends⟩ := items stop stop' (List.cons.inj behind).2
  exact ⟨Prod.ext label item, ends⟩

/-- Texts in a row, each behind a blank. -/
def rowText (text : α → List Char) (items : List α) : List Char :=
  items.flatMap fun item => ' ' :: text item

theorem isDelimited_rowText (items : List α) (rest : List Char) :
    IsDelimited (rowText text items ++ ')' :: rest) := by
  cases items with
  | nil => exact isDelimited_cons rfl
  | cons item items => exact isDelimited_cons rfl

/-- A row ends at the parenthesis behind it, since every item of it comes after a blank. -/
theorem rowText_inj {items others : List α} {rest rest' : List Char}
    (apart : ∀ item ∈ items, ∀ other ∈ others, TellsApart text item other)
    (same : rowText text items ++ ')' :: rest = rowText text others ++ ')' :: rest') :
    items = others ∧ rest = rest' := by
  induction items generalizing others with
  | nil =>
      cases others with
      | nil => exact ⟨rfl, (List.cons.inj same).2⟩
      | cons other others => cases (List.cons.inj same).1
  | cons item items ih =>
      cases others with
      | nil => cases (List.cons.inj same).1
      | cons other others =>
          simp only [rowText, List.flatMap_cons, List.cons_append, List.append_assoc] at same
          have heads := apart item (List.mem_cons_self ..) other (List.mem_cons_self ..)
          obtain ⟨rfl, behind⟩ := heads (isDelimited_rowText items rest)
            (isDelimited_rowText others rest') (List.cons.inj same).2
          obtain ⟨rfl, ends⟩ := ih (fun item member other member' => apart item
            (List.mem_cons_of_mem _ member) other (List.mem_cons_of_mem _ member')) behind
          exact ⟨rfl, ends⟩

end Delimited

/-! ## Words -/

/-- Whether a text has the form of a name, be it a reserved word or not. -/
def isWord (text : String) : Bool :=
  match text.toList with
  | [] => false
  | c :: rest => Pattern.isWordStart c && rest.all Pattern.isWordPart

theorem isSolid_of_isWordPart {c : Char} (part : Pattern.isWordPart c = true) :
    isSolid c = true := by
  simp only [isSolid, Bool.and_eq_true, bne_iff_ne]
  refine ⟨⟨⟨?_, ?_⟩, ?_⟩, ?_⟩ <;> rintro rfl <;> cases part

theorem exists_toList_of_isWord {text : String} (word : isWord text = true) :
    ∃ c rest, text.toList = c :: rest ∧ Pattern.isWordStart c = true ∧
      ∀ d ∈ text.toList, isSolid d = true := by
  unfold isWord at word
  split at word
  · cases word
  · next c rest shape =>
      simp only [Bool.and_eq_true, List.all_eq_true] at word
      obtain ⟨starts, parts⟩ := word
      refine ⟨c, rest, shape, starts, ?_⟩
      rw [shape]
      exact List.forall_mem_cons.mpr
        ⟨isSolid_of_isWordPart (Pattern.isWordPart_of_isWordStart starts),
          fun d member => isSolid_of_isWordPart (parts d member)⟩

theorem tellsApart_word {first second : String} (word : isWord first = true)
    (word' : isWord second = true) : TellsApart String.toList first second := by
  obtain ⟨_, _, _, _, solid⟩ := exists_toList_of_isWord word
  obtain ⟨_, _, _, _, solid'⟩ := exists_toList_of_isWord word'
  exact .of_solid solid solid' String.toList_inj.mp

theorem ReturnType.tellsApart_name (first second : ReturnType) :
    TellsApart (fun type => type.name.toList) first second := by
  have solid (type : ReturnType) : ∀ c ∈ type.name.toList, isSolid c = true :=
    List.all_eq_true.mp (by cases type <;> rfl)
  refine .of_solid (solid first) (solid second) fun same => ?_
  rw [← ofName_name first, String.toList_inj.mp same, ofName_name]

/-! ## Parameters -/

namespace Parameter

/-- A parameter is determined by its text if it is named in the body as it is by callers. -/
def isPrintable (parameter : Parameter) : Bool :=
  isWord parameter.label && parameter.variableName == parameter.label &&
    isWord parameter.typeName

theorem toList_text (parameter : Parameter) :
    parameter.text.toList = labelledText String.toList (parameter.label, parameter.typeName) := by
  simp [text, labelledText, toString]

theorem tellsApart_text {first second : Parameter} (printable : first.isPrintable = true)
    (printable' : second.isPrintable = true) :
    TellsApart (fun parameter => parameter.text.toList) first second := by
  obtain ⟨label, variableName, typeName⟩ := first
  obtain ⟨label', variableName', typeName'⟩ := second
  simp only [isPrintable, Bool.and_eq_true, beq_iff_eq] at printable printable'
  obtain ⟨⟨word, rfl⟩, type⟩ := printable
  obtain ⟨⟨word', rfl⟩, type'⟩ := printable'
  intro rest rest' stop stop' same
  simp only [toList_text] at same
  obtain ⟨pair, ends⟩ :=
    TellsApart.labelled (tellsApart_word word word') (tellsApart_word type type') stop stop' same
  cases pair
  exact ⟨rfl, ends⟩

theorem toList_intercalate_cons (first : Parameter) (others : List Parameter) :
    ' ' :: (" ".intercalate ((first :: others).map text)).toList =
      rowText (fun parameter => parameter.text.toList) (first :: others) := by
  induction others generalizing first with
  | nil => simp [rowText]
  | cons second others ih =>
      have later := ih second
      rw [rowText, List.flatMap_cons, ← rowText, ← later]
      simp [String.intercalate_cons_cons]

/-- No list of parameters but the empty one ends at once. -/
theorem intercalate_ne {first : Parameter} (printable : first.isPrintable = true)
    (others : List Parameter) (rest rest' : List Char) :
    ')' :: rest ≠ (" ".intercalate ((first :: others).map text)).toList ++ rest' := by
  simp only [isPrintable, Bool.and_eq_true] at printable
  obtain ⟨c, more, shape, starts, _⟩ := exists_toList_of_isWord printable.1.1
  have row := toList_intercalate_cons first others
  rw [rowText, List.flatMap_cons, toList_text, labelledText, shape] at row
  rw [(List.cons.inj row).2]
  intro same
  cases (List.cons.inj same).1
  cases starts

theorem intercalate_inj {parameters others : List Parameter} {rest rest' : List Char}
    (printable : parameters.all isPrintable = true) (printable' : others.all isPrintable = true)
    (same : (" ".intercalate (parameters.map text)).toList ++ ')' :: rest =
      (" ".intercalate (others.map text)).toList ++ ')' :: rest') :
    parameters = others ∧ rest = rest' := by
  rw [List.all_eq_true] at printable printable'
  cases parameters with
  | nil =>
      cases others with
      | nil => exact ⟨rfl, (List.cons.inj same).2⟩
      | cons other others =>
          exact (intercalate_ne (printable' other (List.mem_cons_self ..)) _ _ _ same).elim
  | cons parameter parameters =>
      cases others with
      | nil =>
          exact (intercalate_ne (printable parameter (List.mem_cons_self ..)) _ _ _ same.symm).elim
      | cons other others =>
          have apart : ∀ first ∈ parameter :: parameters, ∀ second ∈ other :: others,
              TellsApart (fun parameter => parameter.text.toList) first second :=
            fun first member second member' =>
              tellsApart_text (printable first member) (printable' second member')
          refine rowText_inj apart ?_
          rw [← toList_intercalate_cons, ← toList_intercalate_cons, List.cons_append,
            List.cons_append, same]

end Parameter

/-! ## Keywords -/

/-- What a node in parentheses starts with. -/
inductive Keyword where
  | call
  | sign (operator : Operator)
  | func
  | return

namespace Keyword

def word : Keyword → String
  | .call => "call"
  | .sign operator => operator.symbol
  | .func => "func"
  | .return => "return"

def ofWord? (word : String) : Option Keyword :=
  match word with
  | "call" => some .call
  | "func" => some .func
  | "return" => some .return
  | _ => (Operator.ofSymbol? word).map sign

theorem ofWord?_word (keyword : Keyword) : ofWord? keyword.word = some keyword := by
  cases keyword with
  | sign operator => cases operator <;> rfl
  | _ => rfl

theorem tellsApart_word (first second : Keyword) :
    TellsApart (fun keyword => keyword.word.toList) first second := by
  have solid (keyword : Keyword) : ∀ c ∈ keyword.word.toList, isSolid c = true := by
    refine List.all_eq_true.mp ?_
    cases keyword with
    | sign operator => cases operator <;> rfl
    | _ => rfl
  refine .of_solid (solid first) (solid second) fun same => ?_
  have read := ofWord?_word first
  rw [String.toList_inj.mp same, ofWord?_word] at read
  exact (Option.some.inj read).symm

end Keyword

/-! ## Nodes -/

namespace Node

mutual

/--
Whether a node is determined by its text: its names have the form of names, its
parameters are named alike inside and outside, and its numbers are finite.
-/
def isPrintable : Node → Bool
  | .number (.finite _ _) => true
  | .number _ => false
  | .variable name => isWord name
  | .call callee arguments => isWord callee && arePrintable arguments
  | .binary _ lhs rhs => lhs.isPrintable && rhs.isPrintable
  | .function name parameters _ body =>
      isWord name && parameters.all Parameter.isPrintable && body.isPrintable
  | .bareReturn => true
  | .returning value => value.isPrintable

def arePrintable : List (String × Node) → Bool
  | [] => true
  | (label, value) :: rest => isWord label && value.isPrintable && arePrintable rest

end

/-- Whether a node is printed without parentheses. -/
def isAtom : Node → Bool
  | .number _ => true
  | .variable _ => true
  | _ => false

def keyword? : Node → Option Keyword
  | .number _ => none
  | .variable _ => none
  | .call _ _ => some .call
  | .binary operator _ _ => some (.sign operator)
  | .function _ _ _ _ => some .func
  | .bareReturn => some .return
  | .returning _ => some .return

/-- The text between the keyword of a node and its last parenthesis. -/
def inside : Node → List Char
  | .number _ => []
  | .variable _ => []
  | .call callee arguments =>
      ' ' :: (callee.toList ++ rowText (labelledText fun value => value.text.toList) arguments)
  | .binary _ lhs rhs => ' ' :: (lhs.text.toList ++ ' ' :: rhs.text.toList)
  | .function name parameters returnType body =>
      ' ' :: (name.toList ++ ' ' :: '(' ::
        ((" ".intercalate (parameters.map Parameter.text)).toList ++ ')' :: ' ' :: '-' :: '>' ::
          ' ' :: (returnType.name.toList ++ ' ' :: body.text.toList)))
  | .bareReturn => []
  | .returning value => ' ' :: value.text.toList

theorem toList_argumentsText (arguments : List (String × Node)) :
    (argumentsText arguments).toList =
      rowText (labelledText fun value => value.text.toList) arguments := by
  induction arguments with
  | nil => rfl
  | cons argument rest ih =>
      rw [rowText, List.flatMap_cons, ← rowText, ← ih]
      simp [argumentsText, labelledText]

theorem toList_text {node : Node} {keyword : Keyword} (opened : node.keyword? = some keyword) :
    node.text.toList = '(' :: (keyword.word.toList ++ (node.inside ++ [')'])) := by
  cases node with
  | call callee arguments =>
      cases opened
      simp [text, inside, Keyword.word, toList_argumentsText]
  | binary operator lhs rhs =>
      cases opened
      simp [text, inside, Keyword.word]
  | function name parameters returnType body =>
      cases opened
      simp [text, inside, Keyword.word]
  | bareReturn =>
      cases opened
      rfl
  | returning value =>
      cases opened
      simp [text, inside, Keyword.word]
  | _ => cases opened

theorem isDelimited_inside (node : Node) (rest : List Char) :
    IsDelimited (node.inside ++ ')' :: rest) := by
  cases node <;> exact isDelimited_cons rfl

theorem keyword?_eq_none_iff (node : Node) : node.keyword? = none ↔ node.isAtom = true := by
  cases node <;> simp [keyword?, isAtom]

/-! ## Nodes without parentheses -/

/-- The text of a number or a variable has no delimiter in it, and it is not empty. -/
theorem exists_toList_text_of_isAtom {node : Node} (isAtom : node.isAtom = true)
    (printable : node.isPrintable = true) :
    ∃ c rest, node.text.toList = c :: rest ∧ ∀ d ∈ node.text.toList, isSolid d = true := by
  cases node with
  | number value =>
      cases value with
      | finite negative magnitude =>
          obtain ⟨c, rest, shape, _⟩ := Binary64.exists_toList_text_finite negative magnitude
          refine ⟨c, rest, shape, fun d member => ?_⟩
          rcases Binary64.mem_toList_text_finite member with rfl | rfl | digit
          · rfl
          · rfl
          · exact isSolid_of_isWordPart (Pattern.isWordPart_of_isDigit digit)
      | _ => cases printable
  | «variable» name =>
      obtain ⟨c, rest, shape, _, solid⟩ := exists_toList_of_isWord printable
      exact ⟨c, rest, shape, solid⟩
  | _ => cases isAtom

/-- A number is written with a sign or a digit in front, as no name is. -/
theorem text_number_ne {negative : Bool} {magnitude : Magnitude} {name : String}
    (word : isWord name = true) : (Binary64.finite negative magnitude).text ≠ name := by
  obtain ⟨c, rest, shape, starts⟩ := Binary64.exists_toList_text_finite negative magnitude
  obtain ⟨d, more, shape', starts', _⟩ := exists_toList_of_isWord word
  rintro rfl
  rw [shape] at shape'
  cases shape'
  rcases starts with rfl | digit
  · cases starts'
  · rw [Pattern.isWordStart_of_isDigit digit] at starts'
    cases starts'

theorem eq_of_text_of_isAtom {first second : Node} (isAtom : first.isAtom = true)
    (isAtom' : second.isAtom = true) (printable : first.isPrintable = true)
    (printable' : second.isPrintable = true) (same : first.text = second.text) :
    first = second := by
  cases first with
  | number value =>
      cases value with
      | finite negative magnitude =>
          cases second with
          | number value' =>
              cases value' with
              | finite _ _ => exact congrArg number (Binary64.finite_eq_of_text same)
              | _ => cases printable'
          | «variable» name => exact absurd same (text_number_ne printable')
          | _ => cases isAtom'
      | _ => cases printable
  | «variable» name =>
      cases second with
      | number value =>
          cases value with
          | finite negative magnitude => exact absurd same.symm (text_number_ne printable)
          | _ => cases printable'
      | «variable» name' => exact congrArg Node.variable same
      | _ => cases isAtom'
  | _ => cases isAtom

/-- No text starts both as a node in parentheses and as one without them. -/
theorem toList_text_ne {atom node : Node} (isAtom : atom.isAtom = true)
    (printable : atom.isPrintable = true) {keyword : Keyword}
    (opened : node.keyword? = some keyword) (rest rest' : List Char) :
    atom.text.toList ++ rest ≠ node.text.toList ++ rest' := by
  obtain ⟨c, more, shape, solid⟩ := exists_toList_text_of_isAtom isAtom printable
  rw [shape] at solid
  rw [shape, toList_text opened]
  intro same
  cases (List.cons.inj same).1
  cases solid '(' (List.mem_cons_self ..)

/-! ## Determined nodes -/

/-- A node with parentheses around it ends by itself, and any other one before a delimiter. -/
def EndsBefore (node : Node) (rest : List Char) : Prop :=
  node.isAtom = true → IsDelimited rest

/-- Whether a text that starts with the node as it is printed starts with no other node. -/
def IsDetermined (node : Node) : Prop :=
  ∀ ⦃other : Node⦄ ⦃rest rest' : List Char⦄, other.isPrintable = true →
    node.EndsBefore rest → other.EndsBefore rest' →
    node.text.toList ++ rest = other.text.toList ++ rest' → node = other ∧ rest = rest'

theorem IsDetermined.tellsApart {node other : Node} (determined : node.IsDetermined)
    (printable : other.isPrintable = true) :
    TellsApart (fun node => node.text.toList) node other :=
  fun _ _ stop stop' same => determined printable (fun _ => stop) (fun _ => stop') same

theorem isDetermined_of_isAtom {node : Node} (isAtom : node.isAtom = true)
    (printable : node.isPrintable = true) : node.IsDetermined := by
  intro other rest rest' printable' ends ends' same
  cases opened : other.keyword? with
  | some keyword => exact absurd same (toList_text_ne isAtom printable opened rest rest')
  | none =>
      have isAtom' := (keyword?_eq_none_iff other).mp opened
      obtain ⟨_, _, _, solid⟩ := exists_toList_text_of_isAtom isAtom printable
      obtain ⟨_, _, _, solid'⟩ := exists_toList_text_of_isAtom isAtom' printable'
      have apart : TellsApart (fun node => node.text.toList) node other := .of_solid solid solid'
        fun texts => eq_of_text_of_isAtom isAtom isAtom' printable printable'
          (String.toList_inj.mp texts)
      exact apart (ends isAtom) (ends' isAtom') same

/-- A node is determined if it is among those with its keyword by what comes behind that. -/
theorem isDetermined_of_inside {node : Node} {keyword : Keyword}
    (opened : node.keyword? = some keyword)
    (determined : ∀ ⦃other : Node⦄ ⦃rest rest' : List Char⦄, other.isPrintable = true →
      other.keyword? = some keyword →
      node.inside ++ ')' :: rest = other.inside ++ ')' :: rest' → node = other ∧ rest = rest') :
    node.IsDetermined := by
  intro other rest rest' printable' ends ends' same
  cases opened' : other.keyword? with
  | none =>
      have isAtom' := (keyword?_eq_none_iff other).mp opened'
      exact absurd same.symm (toList_text_ne isAtom' printable' opened rest' rest)
  | some keyword' =>
      simp only [toList_text opened, toList_text opened', List.cons_append, List.append_assoc,
        List.nil_append] at same
      obtain ⟨rfl, behind⟩ := keyword.tellsApart_word keyword' (isDelimited_inside node rest)
        (isDelimited_inside other rest') (List.cons.inj same).2
      exact determined printable' opened' behind

theorem arePrintable_iff (arguments : List (String × Node)) : arePrintable arguments = true ↔
    ∀ argument ∈ arguments, isWord argument.1 = true ∧ argument.2.isPrintable = true := by
  induction arguments with
  | nil => exact ⟨nofun, fun _ => rfl⟩
  | cons argument rest ih =>
      rw [arePrintable, Bool.and_eq_true, Bool.and_eq_true, ih, List.forall_mem_cons]

theorem isDetermined_call {callee : String} {arguments : List (String × Node)}
    (printable : (call callee arguments).isPrintable = true)
    (determined : ∀ argument ∈ arguments, argument.2.IsDetermined) :
    (call callee arguments).IsDetermined := by
  refine isDetermined_of_inside rfl fun other rest rest' printable' opened same => ?_
  cases other with
  | call callee' arguments' =>
      simp only [isPrintable, Bool.and_eq_true, arePrintable_iff] at printable printable'
      obtain ⟨word, given⟩ := printable
      obtain ⟨word', given'⟩ := printable'
      simp only [inside, List.cons_append, List.append_assoc] at same
      obtain ⟨rfl, behind⟩ := tellsApart_word word word' (isDelimited_rowText arguments rest)
        (isDelimited_rowText arguments' rest') (List.cons.inj same).2
      have apart : ∀ argument ∈ arguments, ∀ other ∈ arguments',
          TellsApart (labelledText fun value => value.text.toList) argument other :=
        fun argument member other member' =>
          .labelled (tellsApart_word (given argument member).1 (given' other member').1)
            ((determined argument member).tellsApart (given' other member').2)
      obtain ⟨rfl, ends⟩ := rowText_inj apart behind
      exact ⟨rfl, ends⟩
  | _ => cases opened

theorem isDetermined_binary {operator : Operator} {lhs rhs : Node}
    (left : lhs.IsDetermined) (right : rhs.IsDetermined) :
    (binary operator lhs rhs).IsDetermined := by
  refine isDetermined_of_inside rfl fun other rest rest' printable opened same => ?_
  cases other with
  | binary operator' lhs' rhs' =>
      cases opened
      simp only [isPrintable, Bool.and_eq_true] at printable
      simp only [inside, List.cons_append, List.append_assoc] at same
      obtain ⟨rfl, behind⟩ := (left.tellsApart printable.1).inj rfl (List.cons.inj same).2
      obtain ⟨rfl, ends⟩ := (right.tellsApart printable.2).inj rfl behind
      exact ⟨rfl, ends⟩
  | _ => cases opened

theorem isDetermined_function {name : String} {parameters : List Parameter}
    {returnType : ReturnType} {body : Node}
    (printable : (function name parameters returnType body).isPrintable = true)
    (determined : body.IsDetermined) :
    (function name parameters returnType body).IsDetermined := by
  refine isDetermined_of_inside rfl fun other rest rest' printable' opened same => ?_
  cases other with
  | function name' parameters' returnType' body' =>
      simp only [isPrintable, Bool.and_eq_true] at printable printable'
      obtain ⟨⟨word, taken⟩, _⟩ := printable
      obtain ⟨⟨word', taken'⟩, inner⟩ := printable'
      simp only [inside, List.cons_append, List.append_assoc] at same
      obtain ⟨rfl, header⟩ := (tellsApart_word word word').inj rfl (List.cons.inj same).2
      obtain ⟨rfl, arrow⟩ := Parameter.intercalate_inj taken taken' (List.cons.inj header).2
      simp only [List.cons.injEq, true_and] at arrow
      obtain ⟨rfl, block⟩ := (returnType.tellsApart_name returnType').inj rfl arrow
      obtain ⟨rfl, ends⟩ := (determined.tellsApart inner).inj rfl block
      exact ⟨rfl, ends⟩
  | _ => cases opened

theorem isDetermined_bareReturn : bareReturn.IsDetermined := by
  refine isDetermined_of_inside rfl fun other rest rest' _ opened same => ?_
  cases other with
  | bareReturn => exact ⟨rfl, (List.cons.inj same).2⟩
  | returning value => cases (List.cons.inj same).1
  | _ => cases opened

theorem isDetermined_returning {value : Node} (determined : value.IsDetermined) :
    (returning value).IsDetermined := by
  refine isDetermined_of_inside rfl fun other rest rest' printable opened same => ?_
  cases other with
  | bareReturn => cases (List.cons.inj same).1
  | returning value' =>
      have printable : value'.isPrintable = true := printable
      obtain ⟨rfl, ends⟩ := (determined.tellsApart printable).inj rfl (List.cons.inj same).2
      exact ⟨rfl, ends⟩
  | _ => cases opened

mutual

theorem isDetermined : ∀ node : Node, node.isPrintable = true → node.IsDetermined
  | .number _, printable => isDetermined_of_isAtom rfl printable
  | .variable _, printable => isDetermined_of_isAtom rfl printable
  | .call callee arguments, printable => by
      have given := printable
      simp only [isPrintable, Bool.and_eq_true] at given
      exact isDetermined_call printable (areDetermined arguments given.2)
  | .binary operator lhs rhs, printable => by
      simp only [isPrintable, Bool.and_eq_true] at printable
      exact isDetermined_binary (isDetermined lhs printable.1) (isDetermined rhs printable.2)
  | .function name parameters returnType body, printable => by
      have given := printable
      simp only [isPrintable, Bool.and_eq_true] at given
      exact isDetermined_function printable (isDetermined body given.2)
  | .bareReturn, _ => isDetermined_bareReturn
  | .returning value, printable => isDetermined_returning (isDetermined value printable)

theorem areDetermined : ∀ arguments : List (String × Node), arePrintable arguments = true →
    ∀ argument ∈ arguments, argument.2.IsDetermined
  | [], _ => nofun
  | (label, value) :: rest, printable => by
      simp only [arePrintable, Bool.and_eq_true] at printable
      exact List.forall_mem_cons.mpr
        ⟨isDetermined value printable.1.2, areDetermined rest printable.2⟩

end

end Node

/--
Nodes with the same text are the same, if their names have the form of names and
their numbers are finite. And when the text of one starts with that of another, the
latter is a number or a variable.
-/
theorem node_eq_of_text {first second : Node} (printable : first.isPrintable = true)
    (printable' : second.isPrintable = true) :
    (first.text = second.text → first = second) ∧
    (first.text.toList <+: second.text.toList → first.text ≠ second.text →
      first.isAtom = true) := by
  have determined := first.isDetermined printable
  refine ⟨fun same => ?_, fun ⟨rest, same⟩ different => ?_⟩
  · exact (determined printable' (fun _ => isDelimited_nil) (fun _ => isDelimited_nil)
      (congrArg (fun text => text.toList ++ []) same)).1
  · refine (Bool.not_eq_false _).mp fun enclosed => different ?_
    have ends : first.EndsBefore rest := by
      intro isAtom
      rw [enclosed] at isAtom
      cases isAtom
    rw [← List.append_nil second.text.toList] at same
    rw [(determined printable' ends (fun _ => isDelimited_nil) same).1]

/-- A call has another text than one with more arguments, which does not even start with it. -/
theorem node_eq_of_text_calls :
    (Node.call "f" [("a", .variable "b")]).text ≠
      (Node.call "f" [("a", .variable "b"), ("c", .bareReturn)]).text ∧
    ¬ (Node.call "f" [("a", .variable "b")]).text.toList <+:
      (Node.call "f" [("a", .variable "b"), ("c", .bareReturn)]).text.toList ∧
    (Node.variable "b").text.toList <+: (Node.variable "bc").text.toList ∧
    (Node.variable "b").isAtom = true := by
  have calls : (Node.call "f" [("a", .variable "b")]).isPrintable = true ∧
      (Node.call "f" [("a", .variable "b"), ("c", .bareReturn)]).isPrintable = true := by decide
  have names : (Node.variable "b").isPrintable = true ∧
      (Node.variable "bc").isPrintable = true := by decide
  have different : (Node.call "f" [("a", .variable "b")]).text ≠
      (Node.call "f" [("a", .variable "b"), ("c", .bareReturn)]).text := by
    intro same
    cases (node_eq_of_text calls.1 calls.2).1 same
  have starts : (Node.variable "b").text.toList <+: (Node.variable "bc").text.toList :=
    ⟨['c'], rfl⟩
  refine ⟨different, fun starts => ?_, starts, ?_⟩
  · cases (node_eq_of_text calls.1 calls.2).2 starts different
  · exact (node_eq_of_text names.1 names.2).2 starts (by decide)

end ExprLang
