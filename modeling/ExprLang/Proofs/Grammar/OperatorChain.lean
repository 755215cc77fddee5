import ExprLang.Proofs.Grammar.Completeness
import ExprLang.Proofs.Grammar.Soundness
import ExprLang.Proofs.Grammar.Writing

/-!
# Chains of operators

Climbing over a chain of operators comes to two folds. Each maximal run of products
is folded to the left into a term, and the terms are folded to the left over the sums
between them. A climb from a least precedence takes the links of the chain up to the
first one that binds too loosely, and groups them so.
-/

namespace ExprLang

instance (operator : Operator) : Decidable operator.IsMultiplicative :=
  inferInstanceAs (Decidable (operator = .multiplication ∨ operator = .division))

/-! ## Ranks -/

namespace Operator

variable {operator : Operator}

theorem IsAdditive.rank_eq (additive : operator.IsAdditive) : operator.rank = 20 := by
  rcases additive with rfl | rfl <;> rfl

theorem IsMultiplicative.rank_eq (multiplicative : operator.IsMultiplicative) :
    operator.rank = 40 := by
  rcases multiplicative with rfl | rfl <;> rfl

theorem isMultiplicative_iff : operator.IsMultiplicative ↔ 20 < operator.rank := by
  cases operator <;> decide

theorem rank_le (operator : Operator) : operator.rank ≤ 40 := by
  cases operator <;> decide

end Operator

/-! ## Groups of operands -/

namespace Node

/-- An operand on the left of an operator and another operand. -/
def apply (lhs : Node) (step : Operator × Node) : Node :=
  .binary step.1 lhs step.2

/--
The terms of a chain: each maximal run of products is folded to the left, and the
operators that are left stand before the terms after the first one.
-/
def terms (first : Node) : List (Operator × Node) → Node × List (Operator × Node)
  | [] => (first, [])
  | (operator, operand) :: rest =>
      if operator.IsMultiplicative then terms (first.apply (operator, operand)) rest
      else (first, (operator, (operand.terms rest).1) :: (operand.terms rest).2)

/-- The node of a chain, whose terms are folded to the left. -/
def grouped (first : Node) (chain : List (Operator × Node)) : Node :=
  (first.terms chain).2.foldl apply (first.terms chain).1

theorem terms_append_of_multiplicative {run : List (Operator × Node)}
    (products : ∀ step ∈ run, step.1.IsMultiplicative) (first : Node)
    (rest : List (Operator × Node)) :
    first.terms (run ++ rest) = (run.foldl apply first).terms rest := by
  induction run generalizing first with
  | nil => rfl
  | cons step run ih =>
      obtain ⟨product, products⟩ := List.forall_mem_cons.mp products
      rw [List.cons_append, terms, if_pos product, ih products]
      rfl

/-- Before a sum, the first term is complete, and it has no part in the others. -/
theorem exists_terms_eq {rest : List (Operator × Node)}
    (sum : ∀ step ∈ rest.head?, ¬ step.1.IsMultiplicative) :
    ∃ others, ∀ first : Node, first.terms rest = (first, others) := by
  cases rest with
  | nil => exact ⟨[], fun _ => rfl⟩
  | cons step rest =>
      refine ⟨(step.1, (step.2.terms rest).1) :: (step.2.terms rest).2, fun first => ?_⟩
      rw [terms, if_neg (sum step rfl)]

theorem grouped_of_multiplicative {run : List (Operator × Node)}
    (products : ∀ step ∈ run, step.1.IsMultiplicative) (first : Node) :
    first.grouped run = run.foldl apply first := by
  have whole := terms_append_of_multiplicative products first []
  rw [List.append_nil] at whole
  rw [grouped, whole]
  rfl

/-- A product at the head of a chain is taken by the first operand. -/
theorem grouped_cons_of_multiplicative {operator : Operator} (product : operator.IsMultiplicative)
    (first operand : Node) (rest : List (Operator × Node)) :
    first.grouped ((operator, operand) :: rest) =
      (Node.binary operator first operand).grouped rest := by
  rw [grouped, terms, if_pos product]
  rfl

/-- A sum at the head of a chain is taken by the first operand after the products behind it. -/
theorem grouped_cons_of_sum {operator : Operator} {run rest : List (Operator × Node)}
    (sum : ¬ operator.IsMultiplicative) (products : ∀ step ∈ run, step.1.IsMultiplicative)
    (stop : ∀ step ∈ rest.head?, ¬ step.1.IsMultiplicative) (first operand : Node) :
    first.grouped ((operator, operand) :: (run ++ rest)) =
      (Node.binary operator first (operand.grouped run)).grouped rest := by
  obtain ⟨others, same⟩ := exists_terms_eq stop
  rw [grouped, terms, if_neg sum, terms_append_of_multiplicative products, same,
    grouped_of_multiplicative products, grouped, same]
  rfl

/-- The links behind an operator that bind tighter than it are grouped before it is applied. -/
theorem grouped_cons {operator : Operator} {run rest : List (Operator × Node)}
    (ranked : operator.IsAdditive ∨ operator.IsMultiplicative)
    (tight : ∀ step ∈ run, operator.rank < step.1.rank)
    (loose : ∀ step ∈ rest.head?, step.1.rank ≤ operator.rank) (first operand : Node) :
    first.grouped ((operator, operand) :: (run ++ rest)) =
      (Node.binary operator first (operand.grouped run)).grouped rest := by
  rcases ranked with additive | multiplicative
  · rw [additive.rank_eq] at tight loose
    refine grouped_cons_of_sum ?_ ?_ ?_ first operand
    · rw [Operator.isMultiplicative_iff, additive.rank_eq]
      decide
    · exact fun step member => Operator.isMultiplicative_iff.mpr (tight step member)
    · exact fun step member product =>
        Int.not_lt.mpr (loose step member) (Operator.isMultiplicative_iff.mp product)
  · -- no operator binds tighter than a product
    rw [multiplicative.rank_eq] at tight
    cases run with
    | nil => exact grouped_cons_of_multiplicative multiplicative first operand rest
    | cons step _ =>
        exact absurd step.1.rank_le (Int.not_le.mpr (tight step (List.mem_cons_self ..)))

end Node

/-! ## Chains of tokens -/

/-- An operator of a chain and the operand on its right, as tokens and as what they stand for. -/
structure Link where
  sign : Token
  operator : Operator
  operand : List Token
  node : Node

def Link.tokens (link : Link) : List Token :=
  link.sign :: link.operand

def Link.step (link : Link) : Operator × Node :=
  (link.operator, link.node)

/-- The tokens are a complete operand other than a `return`, which the limit allows at the depth. -/
structure IsOperand (depth limit : Nat) (tokens : List Token) (node : Node) : Prop where
  phrase : ∃ levels next, depth + levels ≤ limit ∧ Phrase levels .primary tokens next node
  unreturned : ∀ first ∈ tokens.head?, first.kind ≠ .returnWord

/-- The link is one of the four operators with a precedence, before an operand. -/
structure Link.IsWithin (link : Link) (depth limit : Nat) : Prop where
  denoted : link.sign.operator? = some link.operator
  ranked : link.operator.IsAdditive ∨ link.operator.IsMultiplicative
  operand : IsOperand depth limit link.operand link.node

/-- The links of a chain up to the first one that binds less tightly than the bound. -/
def Link.taken (least : Int) (links : List Link) : List Link :=
  links.takeWhile (least ≤ ·.operator.rank)

/-- The links of a chain from the first one on that binds less tightly than the bound. -/
def Link.left (least : Int) (links : List Link) : List Link :=
  links.dropWhile (least ≤ ·.operator.rank)

namespace IsOperand

variable {depth limit : Nat} {tokens : List Token} {node : Node}

/-- An operand that is no `return` may stand before any token but an opening parenthesis. -/
theorem reads {next : Token} (operand : IsOperand depth limit tokens node)
    (uncalled : next.kind ≠ .leftParen) :
    Parser.Reads (limit - depth) Parser.primary tokens next (some node) := by
  obtain ⟨⟨levels, other, room, phrase⟩, unreturned⟩ := operand
  have enough : levels ≤ limit - depth := by omega
  have moved : Phrase levels .primary tokens next node := by
    cases phrase with
    | number number reads => exact .number number reads
    | name named _ => exact .name named uncalled
    | call named opened closed given => exact .call named opened closed given
    | parenthesised opened closed inner => exact .parenthesised opened closed inner
    | defined definition =>
        cases definition with
        | function defines named opened taken closed pointed typed entered inner exited =>
            exact .defined (.function defines named opened taken closed pointed typed entered
              inner exited)
    | returning returned _ _ => exact absurd returned (unreturned _ rfl)
    | bareReturn returned _ => exact absurd returned (unreturned _ rfl)
  exact Parser.reads_of_phrase (moved.deepen enough)

theorem depth_le (operand : IsOperand depth limit tokens node) : depth ≤ limit := by
  obtain ⟨_, _, room, _⟩ := operand.phrase
  omega

end IsOperand

namespace Link.IsWithin

variable {link : Link} {depth limit : Nat}

theorem precedence_eq (within : link.IsWithin depth limit) :
    link.sign.precedence = .ok link.operator.rank := by
  rcases within.ranked with additive | multiplicative
  · rw [Token.precedence_of_additive within.denoted additive, additive.rank_eq]
  · rw [Token.precedence_of_multiplicative within.denoted multiplicative, multiplicative.rank_eq]

theorem le_rank (within : link.IsWithin depth limit) : 20 ≤ link.operator.rank := by
  rcases within.ranked with additive | multiplicative
  · exact Int.le_of_eq additive.rank_eq.symm
  · rw [multiplicative.rank_eq]
    decide

theorem kind_ne_leftParen (within : link.IsWithin depth limit) : link.sign.kind ≠ .leftParen := by
  rw [Token.kind_of_operator? within.denoted]
  decide

end Link.IsWithin

/-- Whether a climb from the least precedence stops at the token. -/
def Token.Halts (token : Token) (least : Int) : Prop :=
  token.operator? = none ∨ token.BindsBelow least

namespace Token.Halts

variable {token : Token} {least bound : Int}

theorem mono (halts : token.Halts least) (lower : least ≤ bound) : token.Halts bound := by
  rcases halts with other | ⟨precedence, found, below⟩
  · exact .inl other
  · exact .inr ⟨precedence, found, Int.lt_of_lt_of_le below lower⟩

theorem bindsBelow (halts : token.Halts bound) (least : 0 ≤ bound) : token.BindsBelow bound := by
  rcases halts with other | below
  · exact bindsBelow_of_none other least
  · exact below

end Token.Halts

namespace Link

variable {links : List Link} {depth limit : Nat} {least : Int} {next : Token}

/-- The links that are taken bind tightly enough, and the first one that is left does not. -/
theorem exists_taken_left (least : Int) (links : List Link) :
    ∃ run others, taken least links = run ∧ left least links = others ∧ links = run ++ others ∧
      (∀ link ∈ run, least ≤ link.operator.rank) ∧
      ∀ link ∈ others.head?, link.operator.rank < least := by
  refine ⟨_, _, rfl, rfl, List.takeWhile_append_dropWhile.symm, fun link member => ?_,
    fun link member => ?_⟩
  · simpa using List.all_eq_true.mp List.all_takeWhile link member
  · simpa using stop_of_dropWhile links link member

/-- What comes after links is called by none of their operands. -/
theorem kind_headD_ne_leftParen (within : ∀ link ∈ links, link.IsWithin depth limit)
    (uncalled : next.kind ≠ .leftParen) :
    ((links.flatMap tokens).headD next).kind ≠ .leftParen := by
  cases links with
  | nil => exact uncalled
  | cons link rest => exact (within link (List.mem_cons_self ..)).kind_ne_leftParen

/-- A climb stops at links of which the first one binds too loosely, and at what comes after. -/
theorem halts_headD (within : ∀ link ∈ links, link.IsWithin depth limit)
    (loose : ∀ link ∈ links.head?, link.operator.rank < least) (halts : next.Halts least) :
    ((links.flatMap tokens).headD next).Halts least := by
  cases links with
  | nil => exact halts
  | cons link rest =>
      exact .inr ⟨_, (within link (List.mem_cons_self ..)).precedence_eq, loose link rfl⟩

end Link

/-! ## Climbs -/

namespace Parser

variable {depth limit : Nat} {least : Int} {link : Link} {lhs rhs : Node} {result : Option Node}
  {run tail : List Token} {next : Token}

theorem reads_climb_of_halts (halts : next.Halts least) (lhs : Node) :
    Reads (limit - depth) (climb least lhs) [] next (some lhs) := by
  rcases halts with other | loose
  · rintro settings ⟨current, unread, depth, trace⟩ rest ahead _
    cases ahead
    exact ⟨trace, run_climb_of_operator?_none lhs other⟩
  · exact reads_climb_of_bindsBelow loose lhs

/-- A link joins the left operand when no tighter operator comes after it. -/
theorem reads_climb_of_link (within : link.IsWithin depth limit)
    (low : least ≤ link.operator.rank) (uncalled : (tail.headD next).kind ≠ .leftParen)
    (loose : ∃ follow, (tail.headD next).precedence = .ok follow ∧ follow ≤ link.operator.rank)
    (later : Reads (limit - depth) (climb least (.binary link.operator lhs link.node)) tail next
      result) :
    Reads (limit - depth) (climb least lhs) (link.tokens ++ tail) next result := by
  obtain ⟨follow, found, looser⟩ := loose
  rw [climb_eq, Rule.climbStep, Link.tokens, List.cons_append]
  refine .current (.ofExcept within.precedence_eq ?_)
  rw [if_neg (Int.not_lt.mpr low), List.headD_cons, within.denoted]
  refine .advance (.bind (within.operand.reads uncalled) (.current (.ofExcept found ?_)))
  rw [if_neg (Int.not_lt.mpr looser)]
  exact later

/-- Tighter operators after a link are climbed over before it joins the left operand. -/
theorem reads_climb_of_tighter (within : link.IsWithin depth limit)
    (low : least ≤ link.operator.rank)
    (uncalled : ((run ++ tail).headD next).kind ≠ .leftParen)
    (tight : ∃ follow, ((run ++ tail).headD next).precedence = .ok follow ∧
      link.operator.rank < follow)
    (inner : Reads (limit - depth) (climb (link.operator.rank + 1) link.node) run
      (tail.headD next) (some rhs))
    (later : Reads (limit - depth) (climb least (.binary link.operator lhs rhs)) tail next
      result) :
    Reads (limit - depth) (climb least lhs) (link.tokens ++ (run ++ tail)) next result := by
  obtain ⟨follow, found, tighter⟩ := tight
  rw [climb_eq, Rule.climbStep, Link.tokens, List.cons_append]
  refine .current (.ofExcept within.precedence_eq ?_)
  rw [if_neg (Int.not_lt.mpr low), List.headD_cons, within.denoted]
  refine .advance (.bind (within.operand.reads uncalled) (.current (.ofExcept found ?_)))
  rw [if_pos tighter]
  exact .note (.bind inner later)

/-- A link joins the left operand after the tighter links behind it, which are climbed over first. -/
theorem reads_climb_of_cons {run others : List Link} (within : link.IsWithin depth limit)
    (withinRun : ∀ link' ∈ run, link'.IsWithin depth limit)
    (withinOthers : ∀ link' ∈ others, link'.IsWithin depth limit)
    (low : least ≤ link.operator.rank)
    (tight : ∀ link' ∈ run, link.operator.rank + 1 ≤ link'.operator.rank)
    (uncalled : next.kind ≠ .leftParen)
    (stops : ((others.flatMap Link.tokens).headD next).Halts (link.operator.rank + 1))
    (inner : Reads (limit - depth) (climb (link.operator.rank + 1) link.node)
      (run.flatMap Link.tokens) ((others.flatMap Link.tokens).headD next)
      (some (link.node.grouped (run.map Link.step))))
    (later : Reads (limit - depth)
      (climb least (.binary link.operator lhs (link.node.grouped (run.map Link.step))))
      (others.flatMap Link.tokens) next result) :
    Reads (limit - depth) (climb least lhs)
      (link.tokens ++ (run.flatMap Link.tokens ++ others.flatMap Link.tokens)) next result := by
  cases run with
  | nil =>
      obtain ⟨follow, found, below⟩ := stops.bindsBelow (by have := within.le_rank; omega)
      exact reads_climb_of_link within low (Link.kind_headD_ne_leftParen withinOthers uncalled)
        ⟨follow, found, Int.lt_add_one_iff.mp below⟩ later
  | cons first more =>
      have second := withinRun first (List.mem_cons_self ..)
      exact reads_climb_of_tighter within low second.kind_ne_leftParen
        ⟨_, second.precedence_eq, tight first (List.mem_cons_self ..)⟩ inner later

/-- Links that bind tightly enough are all climbed over, up to a token at which the climb stops. -/
theorem reads_climb_of_links {links : List Link}
    (within : ∀ link ∈ links, link.IsWithin depth limit)
    (low : ∀ link ∈ links, least ≤ link.operator.rank) (halts : next.Halts least)
    (uncalled : next.kind ≠ .leftParen) (lhs : Node) :
    Reads (limit - depth) (climb least lhs) (links.flatMap Link.tokens) next
      (some (lhs.grouped (links.map Link.step))) := by
  -- the tighter links behind the first one and the others are shorter chains
  induction count : links.length using Nat.strongRecOn generalizing links least next lhs with
  | ind _ ih =>
      cases links with
      | nil => exact reads_climb_of_halts halts lhs
      | cons link rest =>
          obtain ⟨first, within⟩ := List.forall_mem_cons.mp within
          obtain ⟨least_le, low⟩ := List.forall_mem_cons.mp low
          obtain ⟨run, others, -, -, rfl, tight, loose⟩ :=
            Link.exists_taken_left (link.operator.rank + 1) rest
          obtain ⟨withinRun, withinOthers⟩ := List.forall_mem_append.mp within
          rw [List.length_cons, List.length_append] at count
          have stops := Link.halts_headD withinOthers loose
            (halts.mono (Int.le_trans least_le (Int.le_add_one (Int.le_refl _))))
          have inner := ih run.length (by omega) withinRun tight stops
            (Link.kind_headD_ne_leftParen withinOthers uncalled) link.node rfl
          have later := ih others.length (by omega) withinOthers
            (List.forall_mem_append.mp low).2 halts uncalled
            (.binary link.operator lhs (link.node.grouped (run.map Link.step))) rfl
          have tighter : ∀ step ∈ run.map Link.step, link.operator.rank < step.1.rank :=
            List.forall_mem_map.mpr tight
          have looser : ∀ step ∈ (others.map Link.step).head?,
              step.1.rank ≤ link.operator.rank := by
            intro step member
            rw [List.head?_map] at member
            obtain ⟨link', head, rfl⟩ := Option.map_eq_some_iff.mp member
            exact Int.lt_add_one_iff.mp (loose link' head)
          rw [List.flatMap_cons, List.flatMap_append, List.map_cons, List.map_append, Link.step,
            Node.grouped_cons first.ranked tighter looser]
          exact reads_climb_of_cons first withinRun withinOthers least_le tight uncalled stops inner
            later

/--
A climb over a chain of operators takes the links up to the first one that binds less
tightly than the least precedence, and stops there. It gives the node of the two folds.
In particular, an expression is the node of a whole chain.
-/
theorem climb_groups_links (links : List Link) {next : Token} (other : next.operator? = none)
    (uncalled : next.kind ≠ .leftParen) :
    (∀ (settings : Settings) (cursor : Cursor) (rest : List Token) (least : Int) (lhs : Node),
      (∀ link ∈ links, link.IsWithin cursor.depth settings.maxDepth) →
      cursor.remaining = links.flatMap Link.tokens ++ next :: rest →
      ∃ stop, (climb least lhs).run settings cursor =
          (.ok (some (lhs.grouped ((Link.taken least links).map Link.step))), stop) ∧
        stop.remaining = (Link.left least links).flatMap Link.tokens ++ next :: rest ∧
        stop.depth = cursor.depth) ∧
    ∀ (settings : Settings) (cursor : Cursor) (rest tokens : List Token) (first : Node),
      IsOperand (cursor.depth + 1) settings.maxDepth tokens first →
      (∀ link ∈ links, link.IsWithin (cursor.depth + 1) settings.maxDepth) →
      cursor.remaining = tokens ++ (links.flatMap Link.tokens ++ next :: rest) →
      ∃ stop, expression.run settings cursor =
          (.ok (some (first.grouped (links.map Link.step))), stop) ∧
        stop.remaining = next :: rest ∧ stop.depth = cursor.depth := by
  constructor
  · intro settings cursor rest least lhs within ahead
    cases links with
    | nil =>
        have here : cursor.current = next := (List.cons.inj ahead).1
        exact ⟨cursor, run_climb_of_operator?_none lhs (by rwa [here]), ahead, rfl⟩
    | cons link links =>
        have shallow := (within link (List.mem_cons_self ..)).operand.depth_le
        obtain ⟨run, others, taken, left, shape, tight, loose⟩ :=
          Link.exists_taken_left least (link :: links)
        rw [taken, left]
        rw [shape] at within ahead
        obtain ⟨withinRun, withinOthers⟩ := List.forall_mem_append.mp within
        have reads := reads_climb_of_links withinRun tight
          (Link.halts_headD withinOthers loose (.inl other))
          (Link.kind_headD_ne_leftParen withinOthers uncalled) lhs
        obtain ⟨unread, same⟩ := exists_cons_eq_append (others.flatMap Link.tokens) next rest
        rw [List.flatMap_append, List.append_assoc, same] at ahead
        obtain ⟨trace, ran⟩ := reads settings cursor unread ahead (by omega)
        exact ⟨_, ran, same.symm, rfl⟩
  · intro settings cursor rest tokens first operand within ahead
    have shallow := operand.depth_le
    have low : ∀ link ∈ links, 0 ≤ link.operator.rank :=
      fun link member => Int.le_trans (by decide) (within link member).le_rank
    have operandReads := operand.reads (Link.kind_headD_ne_leftParen within uncalled)
    have chain := reads_climb_of_links within low (.inl other) uncalled first
    have reads : Reads (settings.maxDepth - (cursor.depth + 1) + 1) expression
        (tokens ++ links.flatMap Link.tokens) next (some (first.grouped (links.map Link.step))) := by
      rw [expression_eq]
      exact .nested (.bind operandReads chain)
    rw [← List.append_assoc] at ahead
    obtain ⟨trace, ran⟩ := reads settings cursor rest ahead (by omega)
    exact ⟨_, ran, rfl, rfl⟩

end Parser

/-- A link with an operator and a name. -/
def Link.sample (operator : Operator) : Link :=
  ⟨⟨.binaryOperator, operator.symbol, .nowhere⟩, operator, [.sample .identifier], .variable "1"⟩

theorem IsOperand.sample {depth limit : Nat} (room : depth ≤ limit) :
    IsOperand depth limit [.sample .identifier] (.variable "1") :=
  ⟨⟨0, .sample .endOfInput, room, .name rfl (by decide)⟩, by decide⟩

theorem Link.isWithin_sample {operator : Operator} {depth limit : Nat}
    (ranked : operator.IsAdditive ∨ operator.IsMultiplicative) (room : depth ≤ limit) :
    (Link.sample operator).IsWithin depth limit :=
  ⟨operator.ofSymbol?_symbol, ranked, .sample room⟩

/-- A difference is left alone by a climb for products, and takes a product on its right. -/
theorem climb_groups_difference :
    (∃ stop, (Parser.climb 21 (.variable "a")).run ⟨"", 1⟩ ⟨⟨.binaryOperator, "*", .nowhere⟩,
          [.sample .identifier, ⟨.binaryOperator, "-", .nowhere⟩, .sample .identifier,
            .sample .endOfInput], 0, []⟩ =
        (.ok (some (.binary .multiplication (.variable "a") (.variable "1"))), stop) ∧
      stop.remaining = [⟨.binaryOperator, "-", .nowhere⟩, .sample .identifier,
        .sample .endOfInput] ∧ stop.depth = 0) ∧
    ∃ stop, Parser.expression.run ⟨"", 1⟩ ⟨.sample .identifier, [⟨.binaryOperator, "-", .nowhere⟩,
          .sample .identifier, ⟨.binaryOperator, "*", .nowhere⟩, .sample .identifier,
            .sample .endOfInput], 0, []⟩ =
        (.ok (some (.binary .subtraction (.variable "1")
          (.binary .multiplication (.variable "1") (.variable "1")))), stop) ∧
      stop.remaining = [.sample .endOfInput] ∧ stop.depth = 0 := by
  have other : (Token.sample .endOfInput).operator? = none := rfl
  have product (depth : Nat) (room : depth ≤ 1) :
      (Link.sample .multiplication).IsWithin depth 1 := Link.isWithin_sample (.inr (.inl rfl)) room
  have difference (depth : Nat) (room : depth ≤ 1) :
      (Link.sample .subtraction).IsWithin depth 1 := Link.isWithin_sample (.inl (.inr rfl)) room
  obtain ⟨climbs, -⟩ := Parser.climb_groups_links [.sample .multiplication, .sample .subtraction]
    other (by decide)
  obtain ⟨-, expressions⟩ :=
    Parser.climb_groups_links [.sample .subtraction, .sample .multiplication] other (by decide)
  constructor
  · exact climbs ⟨"", 1⟩ _ [] 21 (.variable "a") (List.forall_mem_cons.mpr
      ⟨product 0 (by decide), List.forall_mem_singleton.mpr (difference 0 (by decide))⟩) rfl
  · exact expressions ⟨"", 1⟩ _ [] _ (.variable "1") (.sample (by decide))
      (List.forall_mem_cons.mpr
        ⟨difference 1 (by decide), List.forall_mem_singleton.mpr (product 1 (by decide))⟩) rfl

end ExprLang
