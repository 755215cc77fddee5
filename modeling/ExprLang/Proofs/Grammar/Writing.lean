import ExprLang.Proofs.Number.ReadBack
import ExprLang.Proofs.Token.Spelling
import ExprLang.Tree.Node

/-!
# Written nodes

A node is written as pieces of source text. An operand is put in parentheses
only where it would be read otherwise: when it is a `return` or a definition, or
an operation that binds looser than its parent, or as tightly on the right side.
-/

namespace ExprLang

/-! ## Pieces of source text -/

namespace Piece

def word (text : String) : Piece :=
  ⟨.identifier, text⟩

def sign (operator : Operator) : Piece :=
  ⟨.binaryOperator, operator.symbol⟩

def numeral (value : Binary64) : Piece :=
  ⟨if '.' ∈ value.text.toList then .floatingLiteral else .integerLiteral, value.text⟩

/-- The piece of a kind whose tokens are all written the same. -/
def fixed (kind : TokenKind) : Piece :=
  ⟨kind, String.ofList (kind.fixedText?.getD [])⟩

def enclosed (needed : Bool) (inside : List Piece) : List Piece :=
  if needed then fixed .leftParen :: (inside ++ [fixed .rightParen]) else inside

end Piece

/-- How tightly an operator binds, or below all others when it has no precedence. -/
def Operator.rank (operator : Operator) : Int :=
  operator.precedence?.getD (-1)

/-- The parameters of a definition, with commas between them. -/
def Parameter.pieces : List Parameter → List Piece
  | [] => []
  | parameter :: rest =>
      .word parameter.label :: .fixed .colon :: .word parameter.typeName ::
        ((if rest.isEmpty then [] else [.fixed .comma]) ++ pieces rest)

namespace Node

def isReturn : Node → Bool
  | .bareReturn => true
  | .returning _ => true
  | _ => false

/-- Whether a node is put in parentheses as the left or the right operand of an operator. -/
def isEnclosed (parent : Operator) (onRight : Bool) : Node → Bool
  | .binary operator _ _ =>
      operator.rank < parent.rank || (onRight && operator.rank == parent.rank)
  | .function _ _ _ _ => true
  | .bareReturn => true
  | .returning _ => true
  | _ => false

mutual

def pieces : Node → List Piece
  | .number value => [.numeral value]
  | .variable name => [.word name]
  | .call callee arguments =>
      .word callee :: .fixed .leftParen :: (argumentPieces [] arguments ++ [.fixed .rightParen])
  | .binary operator lhs rhs =>
      Piece.enclosed (lhs.isEnclosed operator false) lhs.pieces ++
        .sign operator :: Piece.enclosed (rhs.isEnclosed operator true) rhs.pieces
  | .function name parameters returnType body =>
      .fixed .funcWord :: .word name :: .fixed .leftParen ::
        (Parameter.pieces parameters ++ .fixed .rightParen :: .fixed .arrow ::
          .word returnType.name :: .fixed .leftBrace :: (body.pieces ++ [.fixed .rightBrace]))
  | .bareReturn => [.fixed .returnWord]
  | .returning value => .fixed .returnWord :: value.pieces

/-- The arguments of a call, with a separator before the first one and commas before the others. -/
def argumentPieces (separator : List Piece) : List (String × Node) → List Piece
  | [] => []
  | (label, value) :: rest =>
      separator ++ .word label :: .fixed .colon ::
        (value.pieces ++ argumentPieces [.fixed .comma] rest)

end

/-- The source text of several nodes. -/
def source (nodes : List Node) : String :=
  Piece.spaced (nodes.flatMap pieces)

end Node

example : Node.source [.function "f" [⟨"a", "a", "Int"⟩] .int (.binary .subtraction (.variable "a")
    (.binary .addition (.variable "b") (.call "f" [("a", .variable "c")])))] =
    "func f ( a : Int ) -> Int \x7b a - ( b + f ( a : c ) ) \x7d" := by
  decide

/-! ## Writable nodes -/

/-- Whether a text is a word that is not reserved. -/
def isName (text : String) : Bool :=
  match text.toList with
  | [] => false
  | c :: rest =>
      Pattern.isWordStart c && rest.all Pattern.isWordPart &&
        (TokenKind.ofReservedWord? text).isNone

/-- A parameter can be written if it is named in the body as it is by callers. -/
def Parameter.isWritable (parameter : Parameter) : Bool :=
  isName parameter.label && parameter.variableName == parameter.label &&
    isName parameter.typeName

namespace Node

mutual

/--
Whether a node has a source text: its names are words, its numbers are finite
and not negative, and its operators have a precedence.
-/
def isWritable : Node → Bool
  | .number (.finite negative _) => !negative
  | .number _ => false
  | .variable name => isName name
  | .call callee arguments => isName callee && areWritable arguments
  | .binary operator lhs rhs =>
      operator.precedence?.isSome && lhs.isWritable && rhs.isWritable
  | .function name parameters _ body =>
      isName name && parameters.all Parameter.isWritable && body.isWritable
  | .bareReturn => true
  | .returning value => value.isWritable

def areWritable : List (String × Node) → Bool
  | [] => true
  | (label, value) :: rest => isName label && value.isWritable && areWritable rest

end

end Node

/-! ## Spelling of the pieces -/

namespace Piece

theorem isSpelled_word {text : String} (name : isName text = true) : (word text).IsSpelled := by
  unfold isName at name
  split at name
  · cases name
  · next c rest shape =>
      simp only [Bool.and_eq_true, List.all_eq_true, Option.isNone_iff_eq_none] at name
      obtain ⟨⟨starts, parts⟩, free⟩ := name
      unfold IsSpelled word
      rw [shape]
      refine .name starts parts ?_
      rwa [← shape, String.ofList_toList]

theorem isSpelled_fixed {kind : TokenKind} (fixedText : kind.fixedText?.isSome) :
    (fixed kind).IsSpelled := by
  obtain ⟨text, same⟩ := Option.isSome_iff_exists.mp fixedText
  unfold IsSpelled fixed
  rw [same, Option.getD_some, String.toList_ofList]
  exact .fixed same

theorem isSpelled_sign (operator : Operator) : (sign operator).IsSpelled := by
  cases operator <;> exact .operator (by decide)

/-- The point in a numeral tells whether it is read as a whole number. -/
theorem isSpelled_numeral (magnitude : Magnitude) :
    (numeral (.finite false magnitude)).IsSpelled := by
  obtain ⟨decimal, positional, _⟩ := Binary64.exists_isPositional_text magnitude
  unfold IsSpelled numeral
  dsimp only
  generalize (Binary64.finite false magnitude).text.toList = text at positional
  cases positional with
  | whole nonempty all =>
      rw [if_neg fun point => absurd (all '.' point) (by decide)]
      exact .integer nonempty all
  | pointed nonempty all nonempty' all' =>
      rw [if_pos (by simp)]
      exact .fractional nonempty all nonempty' all'

theorem isSpelled_enclosed {needed : Bool} {inside : List Piece}
    (spelled : ∀ piece ∈ inside, piece.IsSpelled) :
    ∀ piece ∈ enclosed needed inside, piece.IsSpelled := by
  unfold enclosed
  split
  · intro piece member
    simp only [List.mem_cons, List.mem_append, List.not_mem_nil, or_false] at member
    rcases member with rfl | member | rfl
    · exact isSpelled_fixed rfl
    · exact spelled piece member
    · exact isSpelled_fixed rfl
  · exact spelled

end Piece

theorem ReturnType.isName_name (type : ReturnType) : isName type.name = true := by
  cases type <;> decide

theorem Parameter.isSpelled_of_mem_pieces {parameters : List Parameter}
    (writable : parameters.all isWritable = true) :
    ∀ piece ∈ pieces parameters, piece.IsSpelled := by
  induction parameters with
  | nil => nofun
  | cons parameter rest ih =>
      simp only [List.all_cons, Bool.and_eq_true] at writable
      obtain ⟨first, others⟩ := writable
      simp only [isWritable, Bool.and_eq_true] at first
      obtain ⟨⟨label, _⟩, type⟩ := first
      simp only [pieces, List.forall_mem_cons, List.forall_mem_append]
      refine ⟨Piece.isSpelled_word label, Piece.isSpelled_fixed rfl, Piece.isSpelled_word type, ?_,
        ih others⟩
      split
      · nofun
      · exact List.forall_mem_singleton.mpr (Piece.isSpelled_fixed rfl)

namespace Node

open Piece

theorem exists_magnitude_of_isWritable {value : Binary64}
    (writable : (number value).isWritable = true) :
    ∃ magnitude, value = .finite false magnitude := by
  cases value with
  | notANumber => cases writable
  | infinity _ => cases writable
  | finite negative magnitude =>
      cases negative with
      | false => exact ⟨magnitude, rfl⟩
      | true => cases writable

mutual

theorem isSpelled_of_mem_pieces : ∀ node : Node, node.isWritable = true →
    ∀ piece ∈ node.pieces, piece.IsSpelled
  | .number value, writable => by
      obtain ⟨magnitude, rfl⟩ := exists_magnitude_of_isWritable writable
      simp only [pieces, List.forall_mem_singleton]
      exact isSpelled_numeral magnitude
  | .variable name, writable => by
      simp only [pieces, List.forall_mem_singleton]
      exact isSpelled_word writable
  | .call callee arguments, writable => by
      simp only [isWritable, Bool.and_eq_true] at writable
      simp only [pieces, List.forall_mem_cons, List.forall_mem_append]
      exact ⟨isSpelled_word writable.1, isSpelled_fixed rfl,
        isSpelled_of_mem_argumentPieces [] arguments writable.2 nofun, isSpelled_fixed rfl, nofun⟩
  | .binary operator lhs rhs, writable => by
      simp only [isWritable, Bool.and_eq_true] at writable
      obtain ⟨⟨_, left⟩, right⟩ := writable
      simp only [pieces, List.forall_mem_cons, List.forall_mem_append]
      exact ⟨isSpelled_enclosed (isSpelled_of_mem_pieces lhs left), isSpelled_sign operator,
        isSpelled_enclosed (isSpelled_of_mem_pieces rhs right)⟩
  | .function name parameters returnType body, writable => by
      simp only [isWritable, Bool.and_eq_true] at writable
      obtain ⟨⟨named, taken⟩, inner⟩ := writable
      simp only [pieces, List.forall_mem_cons, List.forall_mem_append]
      exact ⟨isSpelled_fixed rfl, isSpelled_word named, isSpelled_fixed rfl,
        Parameter.isSpelled_of_mem_pieces taken, isSpelled_fixed rfl, isSpelled_fixed rfl,
        isSpelled_word returnType.isName_name, isSpelled_fixed rfl,
        isSpelled_of_mem_pieces body inner, isSpelled_fixed rfl, nofun⟩
  | .bareReturn, _ => by
      simp only [pieces, List.forall_mem_singleton]
      exact isSpelled_fixed rfl
  | .returning value, writable => by
      simp only [pieces, List.forall_mem_cons]
      exact ⟨isSpelled_fixed rfl, isSpelled_of_mem_pieces value writable⟩

theorem isSpelled_of_mem_argumentPieces (separator : List Piece) :
    ∀ arguments : List (String × Node), areWritable arguments = true →
      (∀ piece ∈ separator, piece.IsSpelled) →
      ∀ piece ∈ argumentPieces separator arguments, piece.IsSpelled
  | [], _, _ => nofun
  | (label, value) :: rest, writable, spelled => by
      simp only [areWritable, Bool.and_eq_true] at writable
      obtain ⟨⟨labelled, given⟩, others⟩ := writable
      have comma : ∀ piece ∈ [fixed .comma], piece.IsSpelled :=
        List.forall_mem_singleton.mpr (isSpelled_fixed rfl)
      simp only [argumentPieces, List.forall_mem_cons, List.forall_mem_append]
      exact ⟨spelled, isSpelled_word labelled, isSpelled_fixed rfl,
        isSpelled_of_mem_pieces value given,
        isSpelled_of_mem_argumentPieces [fixed .comma] rest others comma⟩

end

/-- The source text of nodes that can be written is cut into their pieces. -/
theorem isCutInto_source {nodes : List Node} (writable : ∀ node ∈ nodes, node.isWritable = true) :
    IsCutInto (source nodes).toList (nodes.flatMap pieces) := by
  refine isCutInto_spaced fun piece member => ?_
  obtain ⟨node, listed, inside⟩ := List.mem_flatMap.mp member
  exact isSpelled_of_mem_pieces node (writable node listed) piece inside

end Node

end ExprLang
