import ExprLang.Proofs.Token.Language
import ExprLang.Proofs.Token.Scanning

/-!
# Maximal munch

A text can be cut by the languages of the shapes alone: the longest text of any shape is
cut off its start, again and again, until no start of what is left has a shape. There is
one such cut, and a source is split along it. So words, fractions and arrows that stand
outside of comments are not torn apart, and two slashes stand at the start of a comment
or inside of one.
-/

namespace ExprLang

open Text

/-! ## Cuts by maximal munch -/

/-- The text that portions make up in a row. -/
def Portion.textOf (portions : List Portion) : List Char :=
  portions.flatMap Portion.text

@[simp]
theorem Portion.textOf_cons (portion : Portion) (portions : List Portion) :
    textOf (portion :: portions) = portion.text ++ textOf portions :=
  List.flatMap_cons

/-- The portions that are cut off a text by maximal munch, and the text that is left over. -/
inductive Munches : List Char → List Portion → List Char → Prop where
  | stuck {text : List Char}
      (unmatched : ∀ (shape : Shape) (front : List Char), front <+: text → front ∉ shape.language) :
      Munches text [] text
  | munch {portion : Portion} {portions : List Portion} {rest leftover : List Char}
      (longest : portion.IsLongestOf (portion.text ++ rest))
      (others : Munches rest portions leftover) :
      Munches (portion.text ++ rest) (portion :: portions) leftover

namespace Munches

variable {text leftover : List Char} {portions : List Portion}

theorem text_eq (munches : Munches text portions leftover) :
    text = Portion.textOf portions ++ leftover := by
  induction munches with
  | stuck _ => rfl
  | munch _ _ ih => rw [ih, Portion.textOf_cons, List.append_assoc]

theorem unique (munches : Munches text portions leftover) {portions' : List Portion}
    {leftover' : List Char} (munches' : Munches text portions' leftover') :
    portions' = portions ∧ leftover' = leftover := by
  induction munches generalizing portions' leftover' with
  | stuck unmatched =>
      cases munches' with
      | stuck _ => exact ⟨rfl, rfl⟩
      | munch longest _ => exact absurd longest.mem (unmatched _ _ longest.starts)
  | @munch portion _ rest _ longest _ ih =>
      generalize same : portion.text ++ rest = whole at munches'
      cases munches' with
      | stuck unmatched =>
          rw [same] at longest
          exact absurd longest.mem (unmatched _ _ longest.starts)
      | munch longest' others' =>
          rw [same] at longest
          cases longest.eq longest'
          cases List.append_cancel_left same
          obtain ⟨rfl, rfl⟩ := ih others'
          exact ⟨rfl, rfl⟩

theorem exists_munches (text : List Char) :
    ∃ portions leftover, Munches text portions leftover := by
  induction count : text.length using Nat.strongRecOn generalizing text with
  | ind _ ih =>
      cases found : Lexeme.first? text with
      | none =>
          exact ⟨[], text, .stuck fun shape _ => Lexeme.not_mem_of_first?_eq_none found shape⟩
      | some pair =>
          obtain ⟨lexeme, rest⟩ := pair
          obtain ⟨portion, rfl, -, longest⟩ := Lexeme.isLongestOf_of_first? found
          have positive := List.length_pos_iff.mpr longest.nonempty
          rw [List.length_append] at count
          obtain ⟨portions, leftover, others⟩ := ih rest.length (by omega) rest rfl
          exact ⟨portion :: portions, leftover, .munch longest others⟩

/-- The first lexemes, one after the other, are the portions of maximal munch. -/
theorem cut_eq (munches : Munches text portions leftover) :
    Cut.ofText text = ⟨portions.map Portion.lexeme, leftover⟩ := by
  induction munches with
  | @stuck text unmatched =>
      cases found : Lexeme.first? text with
      | none => exact Cut.ofText_of_first?_eq_none found
      | some pair =>
          obtain ⟨portion, -, -, longest⟩ := Lexeme.isLongestOf_of_first? found
          exact absurd longest.mem (unmatched _ _ longest.starts)
  | munch longest _ ih => rw [Cut.ofText_of_first? (Lexeme.first?_of_isLongestOf longest), ih,
      List.map_cons]

end Munches

/-! ## Tokens of portions -/

/-- The tokens of portions that stand in a row from a byte of a file on. -/
def Portion.tokensFrom (file : String) : Nat → List Portion → List Token
  | _, [] => []
  | place, portion :: portions =>
      (portion.lexeme.kind?.toList.map fun kind => .spelledAt file place kind portion.text) ++
        tokensFrom file (place + byteLength portion.text) portions

/-- What a source of portions and a leftover becomes. -/
def Portion.outcome (file : String) (portions : List Portion) :
    List Char → Except Fault (List Token)
  | [] => .ok (tokensFrom file 0 portions ++
      [.endOfInput (.ofBytes file (byteLength (textOf portions)) 0)])
  | c :: _ => .error ⟨.unrecognisedToken (String.singleton c),
      .ofByte file (byteLength (textOf portions))⟩

theorem Portion.accept_lexeme (portion : Portion) (source file : String) (place : Nat)
    (scanned : List Token) :
    (Reader.mk source file place scanned).accept portion.lexeme =
      ⟨source, file, place + byteLength portion.text,
        (tokensFrom file place [portion]).reverse ++ scanned⟩ := by
  have bytes : portion.lexeme.text.utf8ByteSize = byteLength portion.text := by
    rw [← byteLength_toList, Portion.lexeme, String.toList_ofList]
  unfold Reader.accept
  dsimp only
  rw [bytes, tokensFrom, tokensFrom]
  cases portion.lexeme.kind? <;> rfl

theorem Portion.foldl_accept (portions : List Portion) (source file : String) (place : Nat)
    (scanned : List Token) :
    (portions.map Portion.lexeme).foldl Reader.accept ⟨source, file, place, scanned⟩ =
      ⟨source, file, place + byteLength (textOf portions),
        (tokensFrom file place portions).reverse ++ scanned⟩ := by
  induction portions generalizing place scanned with
  | nil => rfl
  | cons portion portions ih =>
      rw [List.map_cons, List.foldl_cons, accept_lexeme, ih, textOf_cons, byteLength_append,
        Nat.add_assoc, tokensFrom, tokensFrom, tokensFrom, List.append_nil, List.reverse_append,
        List.append_assoc]

/-- A source is split into the tokens of its portions, or fails at its leftover. -/
theorem Munches.outcome_tokenize {source : String} {file? : Option String}
    {portions : List Portion} {leftover : List Char}
    (munches : Munches source.toList portions leftover) :
    (tokenize source file?).outcome =
      Portion.outcome (file?.getD Reader.defaultFile) portions leftover := by
  unfold tokenize
  dsimp only
  rw [munches.cut_eq, Reader.ofSource, Portion.foldl_accept, Nat.zero_add, List.append_nil]
  cases leftover with
  | nil =>
      dsimp only
      rw [Reader.close, Reader.tokens_push, Reader.tokens, List.reverse_reverse]
      rfl
  | cons c rest => rfl

/-! ## Texts that stay whole -/

/-- What two neighbours within one text of a shape are. -/
inductive Shape.Joins : Shape → Char → Char → Prop where
  | blanks {c d : Char} (blank : isBlank d = true) : Joins .blanks c d
  | comment {c d : Char} : Joins .comment c d
  | word {c d : Char} (part : Pattern.isWordPart c = true) (part' : Pattern.isWordPart d = true) :
      Joins .word c d
  | number {shape : Shape} {c d : Char} (digit : c.isDigit = true ∨ c = '.')
      (digit' : d.isDigit = true ∨ d = '.') : Joins shape c d
  | arrow : Joins .arrow '-' '>'

theorem Shape.joins_of_mem {shape : Shape} {front back : List Char} {c d : Char}
    (member : front ++ c :: d :: back ∈ shape.language) : shape.Joins c d := by
  have left : c ∈ front ++ c :: d :: back := List.mem_append_right _ (List.mem_cons_self ..)
  have right : d ∈ front ++ c :: d :: back :=
    List.mem_append_right _ (List.mem_cons_of_mem _ (List.mem_cons_self ..))
  have single {before : List Char} {e : Char} (same : before ++ c :: d :: back = [e]) :
      False := by
    have lengths := congrArg List.length same
    rw [List.length_append, List.length_cons, List.length_cons, List.length_singleton] at lengths
    omega
  cases shape with
  | blanks => exact .blanks ((mem_run.mp member).2 d right)
  | comment => exact .comment
  | word =>
      obtain ⟨first, rest, same, starts, parts⟩ := mem_oneOf_mul_kstar.mp member
      have all : ∀ e ∈ first :: rest, Pattern.isWordPart e = true :=
        List.forall_mem_cons.mpr ⟨Pattern.isWordPart_of_isWordStart starts, parts⟩
      rw [← same] at all
      exact .word (all c left) (all d right)
  | fractional =>
      obtain ⟨whole, fraction, same, first, second⟩ := mem_fractional.mp member
      have all : ∀ e ∈ whole ++ '.' :: fraction, e.isDigit = true ∨ e = '.' :=
        List.forall_mem_append.mpr ⟨fun e inside => .inl ((mem_run.mp first).2 e inside),
          List.forall_mem_cons.mpr
            ⟨.inr rfl, fun e inside => .inl ((mem_run.mp second).2 e inside)⟩⟩
      rw [← same] at all
      exact .number (all c left) (all d right)
  | digits =>
      have all := (mem_run.mp member).2
      exact .number (.inl (all c left)) (.inl (all d right))
  | arrow =>
      have same := Set.mem_singleton_iff.mp member
      cases front with
      | nil =>
          cases same
          exact .arrow
      | cons e front => exact (single (List.cons.inj same).2).elim
  | operator =>
      obtain ⟨e, same, -⟩ := member
      exact (single same).elim
  | _ => exact (single (Set.mem_singleton_iff.mp member)).elim

/--
A text that stands behind another one at the start of a source either is a portion of its
own, or lies inside of a comment, or comes behind all portions.
-/
inductive StaysWhole (portions : List Portion) (front : List Char) (portion : Portion) : Prop where
  | own (before after : List Portion) (split : portions = before ++ portion :: after)
      (place : front = Portion.textOf before)
  | comment (before after : List Portion) (left right : List Char)
      (split : portions = before ++ ⟨.comment, left ++ portion.text ++ right⟩ :: after)
      (place : front = Portion.textOf before ++ left)
  | beyond (short : (Portion.textOf portions).length ≤ front.length)

namespace StaysWhole

theorem cons {portions : List Portion} {front : List Char} {portion : Portion}
    (whole : StaysWhole portions front portion) (first : Portion) :
    StaysWhole (first :: portions) (first.text ++ front) portion := by
  cases whole with
  | own before after split place =>
      refine .own (first :: before) after ?_ ?_
      · rw [split, List.cons_append]
      · rw [place, Portion.textOf_cons]
  | comment before after left right split place =>
      refine .comment (first :: before) after left right ?_ ?_
      · rw [split, List.cons_append]
      · rw [place, Portion.textOf_cons, List.append_assoc]
  | beyond short =>
      refine .beyond ?_
      rw [Portion.textOf_cons, List.length_append, List.length_append]
      omega

end StaysWhole

/-- A comment goes on up to the end of its line. -/
theorem Portion.IsLongestOf.eq_lineFeed_of_comment {portion : Portion} {c : Char} {rest : List Char}
    (longest : portion.IsLongestOf (portion.text ++ c :: rest)) (line : portion.shape = .comment) :
    c = '\n' := by
  by_contra other
  have member := longest.mem
  rw [line] at member
  obtain ⟨inside, same, each⟩ := Shape.mem_comment.mp member
  have further : portion.text ++ [c] ∈ Shape.comment.language := by
    refine Shape.mem_comment.mpr ⟨inside ++ [c], by rw [same]; rfl, ?_⟩
    exact List.forall_mem_append.mpr ⟨each, List.forall_mem_singleton.mpr (bne_iff_ne.mpr other)⟩
  have shorter := longest.longest ⟨rest, by rw [List.append_assoc]; rfl⟩ further
  rw [List.length_append, List.length_singleton] at shorter
  omega

/-- A comment that reaches into a text on one line goes on up to its end. -/
theorem Portion.IsLongestOf.exists_right {portion : Portion} {rest front text back : List Char}
    (longest : portion.IsLongestOf (portion.text ++ rest)) (line : portion.shape = .comment)
    (unbroken : '\n' ∉ text) (split : portion.text ++ rest = front ++ (text ++ back))
    (begins : front <+: portion.text) : ∃ right, portion.text = front ++ text ++ right := by
  obtain ⟨inside, same⟩ := begins
  rw [← same, List.append_assoc] at split
  have parts := List.append_cancel_left split
  rcases Nat.lt_or_ge inside.length text.length with shorter | covers
  · obtain ⟨more, rfl⟩ : inside <+: text :=
      List.prefix_of_prefix_length_le ⟨rest, parts⟩ ⟨back, rfl⟩ (Nat.le_of_lt shorter)
    cases more with
    | nil => exact absurd shorter (by rw [List.append_nil]; exact Nat.lt_irrefl _)
    | cons c more =>
        rw [List.append_assoc] at parts
        rw [List.append_cancel_left parts, List.cons_append] at longest
        rw [longest.eq_lineFeed_of_comment line] at unbroken
        exact absurd (List.mem_append_right _ (List.mem_cons_self ..)) unbroken
  · obtain ⟨right, rfl⟩ : text <+: inside :=
      List.prefix_of_prefix_length_le ⟨back, rfl⟩ ⟨rest, parts⟩ covers
    exact ⟨right, by rw [← same, List.append_assoc]⟩

/--
A text on one line stays whole when it is what is cut off where it stands at the start of
what is left, or starts a comment there, and when only comments reach into it.
-/
theorem Munches.staysWhole {text leftover front back : List Char} {portions : List Portion}
    {portion : Portion} (munches : Munches text portions leftover)
    (split : text = front ++ (portion.text ++ back)) (unbroken : '\n' ∉ portion.text)
    (starts : ∀ first : Portion, first.IsLongestOf (portion.text ++ back) →
      first = portion ∨ first.shape = .comment)
    (reaches : ∀ behind, behind <:+ front → behind ≠ [] → ∀ first : Portion,
      first.IsLongestOf (behind ++ (portion.text ++ back)) →
      behind.length < first.text.length → first.shape = .comment) :
    StaysWhole portions front portion := by
  induction munches generalizing front with
  | stuck _ => exact .beyond (Nat.zero_le _)
  | @munch first portions rest _ longest others ih =>
      rcases Nat.lt_or_ge front.length first.text.length with further | within
      · have begins : front <+: first.text :=
          List.prefix_of_prefix_length_le ⟨_, rfl⟩ ⟨rest, split⟩ (Nat.le_of_lt further)
        have inComment (line : first.shape = .comment) :
            StaysWhole (first :: portions) front portion := by
          obtain ⟨right, same⟩ := longest.exists_right line unbroken split begins
          refine .comment [] portions front right ?_ rfl
          rw [← same, ← line]
          rfl
        rw [split] at longest
        cases front with
        | nil =>
            rcases starts first longest with rfl | line
            · exact .own [] portions rfl rfl
            · exact inComment line
        | cons c front =>
            exact inComment
              (reaches _ (List.suffix_refl _) (List.cons_ne_nil c front) first longest further)
      · have begins : first.text <+: front :=
          List.prefix_of_prefix_length_le ⟨rest, split⟩ ⟨_, rfl⟩ within
        obtain ⟨behind, rfl⟩ := begins
        rw [List.append_assoc] at split
        refine (ih (List.append_cancel_left split) fun later ends => ?_).cons first
        exact reaches later (ends.trans (List.suffix_append ..))

/-! ## Words, fractions, arrows and comments -/

namespace Portion.IsLongestOf

variable {portion : Portion}

/-- What a portion that starts before a character and takes it joins with it. -/
theorem exists_joins {behind rest : List Char} {c : Char}
    (longest : portion.IsLongestOf (behind ++ c :: rest)) (nonempty : behind ≠ [])
    (further : behind.length < portion.text.length) :
    ∃ more, portion.text = behind ++ c :: more ∧
      ∃ d ∈ behind.getLast?, portion.shape.Joins d c := by
  obtain ⟨inside, same⟩ : behind <+: portion.text :=
    List.prefix_of_prefix_length_le ⟨_, rfl⟩ longest.starts (Nat.le_of_lt further)
  obtain ⟨later, split⟩ := longest.starts
  rw [← same, List.append_assoc] at split
  have parts := List.append_cancel_left split
  cases inside with
  | nil =>
      rw [← same, List.append_nil] at further
      exact absurd further (Nat.lt_irrefl _)
  | cons e more =>
      cases List.cons.inj parts with
      | intro first _ =>
          subst first
          obtain ⟨init, d, rfl⟩ := (List.eq_nil_or_concat' behind).resolve_left nonempty
          refine ⟨more, same.symm, d, List.getLast?_concat, ?_⟩
          have member := longest.mem
          rw [← same, List.append_assoc] at member
          exact Shape.joins_of_mem member

/-- What is cut off where a first lexeme is known. -/
theorem eq_of_first? {text back : List Char} {shape : Shape} {lexeme : Lexeme}
    (longest : portion.IsLongestOf (text ++ back))
    (found : Lexeme.first? (text ++ back) = some (lexeme, back)) (member : text ∈ shape.language) :
    portion = ⟨shape, text⟩ := by
  obtain ⟨other, split, -, longest'⟩ := Lexeme.isLongestOf_of_first? found
  cases longest.eq longest'
  cases portion with
  | mk kind taken =>
      cases List.append_cancel_right split
      rw [longest.unique shape member]

end Portion.IsLongestOf

/-- A word that is no part of a longer one, between the text before it and the text behind it. -/
structure IsMaximalWord (front word back : List Char) : Prop where
  mem : word ∈ Shape.word.language
  maximal : ∀ {left right : List Char}, left <:+ front → right <+: back →
    left ++ word ++ right ∈ Shape.word.language → left = [] ∧ right = []

theorem IsMaximalWord.stop {front back parts : List Char} {c : Char}
    (word : IsMaximalWord front (c :: parts) back) (starts : Pattern.isWordStart c = true)
    (each : ∀ d ∈ parts, Pattern.isWordPart d = true) :
    ∀ d ∈ back.head?, Pattern.isWordPart d = false := by
  intro d first
  refine Bool.eq_false_iff.mpr fun part => ?_
  obtain ⟨more, rfl⟩ := List.head?_eq_some_iff.mp first
  have longer : [] ++ c :: parts ++ [d] ∈ Shape.word.language :=
    mem_oneOf_mul_kstar.mpr ⟨c, parts ++ [d], rfl, starts,
      List.forall_mem_append.mpr ⟨each, List.forall_mem_singleton.mpr part⟩⟩
  exact List.cons_ne_nil d [] (word.maximal List.nil_suffix ⟨more, rfl⟩ longer).2

/-- No word that begins before a maximal word reaches into it. -/
theorem IsMaximalWord.eq_nil_of_reaches {front back parts behind more : List Char} {c : Char}
    (word : IsMaximalWord front (c :: parts) back)
    (all : ∀ d ∈ c :: parts, Pattern.isWordPart d = true) (ends : behind <:+ front)
    (member : behind ++ c :: more ∈ Shape.word.language) : behind = [] := by
  cases behind with
  | nil => rfl
  | cons e behind =>
      obtain ⟨e', rest, same, starts, each⟩ := mem_oneOf_mul_kstar.mp member
      obtain ⟨rfl, rfl⟩ := List.cons.inj same
      have longer : e :: behind ++ c :: parts ++ [] ∈ Shape.word.language := by
        refine mem_oneOf_mul_kstar.mpr ⟨e, behind ++ c :: parts, ?_, starts, ?_⟩
        · rw [List.append_nil, List.cons_append]
        · exact List.forall_mem_append.mpr ⟨(List.forall_mem_append.mp each).1, all⟩
      exact (word.maximal ends List.nil_prefix longer).1

/-- Only a comment takes a character that is no blank, no part of a word or number and no arrow. -/
theorem Shape.Joins.eq_comment {shape : Shape} {c d : Char} (joins : shape.Joins c d)
    (dark : isBlank d = false) (wordless : Pattern.isWordPart d = false) (point : d ≠ '.')
    (tip : d ≠ '>') : shape = .comment := by
  cases joins with
  | blanks blank =>
      rw [dark] at blank
      cases blank
  | comment => rfl
  | word _ part =>
      rw [wordless] at part
      cases part
  | number _ digit =>
      rcases digit with digit | same
      · rw [Pattern.isWordPart_of_isDigit digit] at wordless
        cases wordless
      · exact absurd same point
  | arrow => exact absurd rfl tip

theorem Lexeme.first?_fraction {whole fraction back : List Char}
    (first : whole ∈ Shape.digits.language) (second : fraction ∈ Shape.digits.language)
    (stop : ∀ c ∈ back.head?, c.isDigit = false) :
    first? (whole ++ '.' :: fraction ++ back) =
      some (⟨some .floatingLiteral, String.ofList (whole ++ '.' :: fraction)⟩, back) := by
  obtain ⟨some, each⟩ := mem_run.mp first
  obtain ⟨some', each'⟩ := mem_run.mp second
  exact Spelling.first?_fractional some each some' each' stop

namespace Munches

variable {text leftover front back : List Char} {portions : List Portion}

/-- A maximal word stays whole, also behind digits, which end before it. -/
theorem word_staysWhole {word : List Char} (munches : Munches text portions leftover)
    (split : text = front ++ word ++ back) (maximal : IsMaximalWord front word back) :
    StaysWhole portions front ⟨.word, word⟩ := by
  obtain ⟨c, parts, rfl, starts, each⟩ := mem_oneOf_mul_kstar.mp maximal.mem
  have part := Pattern.isWordPart_of_isWordStart starts
  have all : ∀ d ∈ c :: parts, Pattern.isWordPart d = true := List.forall_mem_cons.mpr ⟨part, each⟩
  rw [List.append_assoc] at split
  refine munches.staysWhole split ?_ ?_ ?_
  · exact fun member => absurd (all _ member) (by decide)
  · intro first longest
    have found := Spelling.first?_word starts each (maximal.stop starts each)
    exact .inl (longest.eq_of_first? found maximal.mem)
  · intro behind ends nonempty first longest further
    obtain ⟨more, same, d, -, joins⟩ := longest.exists_joins nonempty further
    have member := longest.mem
    generalize first.shape = shape at joins member ⊢
    cases joins with
    | blanks blank =>
        rw [Pattern.isBlank_of_isWordPart part] at blank
        cases blank
    | comment => rfl
    | word _ _ =>
        rw [same] at member
        exact absurd (maximal.eq_nil_of_reaches all ends member) nonempty
    | number _ digit =>
        rcases digit with digit | rfl
        · rw [Pattern.isWordStart_of_isDigit digit] at starts
          cases starts
        · exact absurd starts (by decide)
    | arrow => exact absurd starts (by decide)

/-- A fraction stays whole unless its first digits end a word or go on with another number. -/
theorem fraction_staysWhole {whole fraction : List Char}
    (munches : Munches text portions leftover)
    (split : text = front ++ (whole ++ '.' :: fraction) ++ back)
    (first : whole ∈ Shape.digits.language) (second : fraction ∈ Shape.digits.language)
    (free : ∀ c ∈ front.getLast?, Pattern.isWordPart c = false ∧ c ≠ '.')
    (stop : ∀ c ∈ back.head?, c.isDigit = false) :
    StaysWhole portions front ⟨.fractional, whole ++ '.' :: fraction⟩ := by
  have member : whole ++ '.' :: fraction ∈ Shape.fractional.language :=
    Shape.mem_fractional.mpr ⟨whole, fraction, rfl, first, second⟩
  rw [List.append_assoc] at split
  refine munches.staysWhole split ?_ ?_ ?_
  · intro feed
    rcases List.mem_append.mp feed with feed | _ | ⟨_, feed⟩
    · exact absurd ((mem_run.mp first).2 _ feed) (by decide)
    · exact absurd ((mem_run.mp second).2 _ feed) (by decide)
  · intro portion longest
    exact .inl (longest.eq_of_first? (Lexeme.first?_fraction first second stop) member)
  · intro behind ends nonempty portion longest further
    obtain ⟨c, digits, rfl, digit, -⟩ := mem_oneOf_mul_kstar.mp first
    obtain ⟨_, _, d, last, joins⟩ := longest.exists_joins nonempty further
    obtain ⟨before, rfl⟩ := ends
    obtain ⟨wordless, point⟩ := free d (by rw [List.getLast?_append, last]; rfl)
    generalize portion.shape = shape at joins ⊢
    cases joins with
    | blanks blank =>
        rw [Pattern.isDigit_of_isBlank blank] at digit
        cases digit
    | comment => rfl
    | word part _ =>
        rw [wordless] at part
        cases part
    | number digit' _ =>
        rcases digit' with digit' | same
        · rw [Pattern.isWordPart_of_isDigit digit'] at wordless
          cases wordless
        · exact absurd same point
    | arrow => exact absurd digit (by decide)

theorem arrow_staysWhole (munches : Munches text portions leftover)
    (split : text = front ++ ['-', '>'] ++ back) :
    StaysWhole portions front ⟨.arrow, ['-', '>']⟩ := by
  rw [List.append_assoc] at split
  refine munches.staysWhole split (by decide) ?_ ?_
  · exact fun first longest => .inl (longest.eq_of_first? rfl rfl)
  · intro behind _ nonempty first longest further
    obtain ⟨_, _, _, _, joins⟩ := longest.exists_joins nonempty further
    exact joins.eq_comment rfl rfl (by decide) (by decide)

/-- Two slashes start a comment, unless they lie inside of one. -/
theorem slashes_staysWhole (munches : Munches text portions leftover)
    (split : text = front ++ ['/', '/'] ++ back) :
    StaysWhole portions front ⟨.comment, ['/', '/']⟩ := by
  rw [List.append_assoc] at split
  refine munches.staysWhole split (by decide) ?_ ?_
  · intro first longest
    have member := longest.mem
    have begins := longest.starts
    have further := longest.longest (List.prefix_append ['/', '/'] back)
      (Shape.mem_comment.mpr ⟨[], rfl, nofun⟩)
    obtain ⟨c, more, same, listed⟩ := Shape.exists_head member
    rw [same] at begins
    rw [(List.cons_prefix_cons.mp begins).1] at listed
    rcases List.mem_pair.mp (show first.shape ∈ [Shape.comment, .operator] from listed) with
      line | sign
    · exact .inr line
    · -- an operator is shorter than the two slashes
      rw [sign] at member
      obtain ⟨_, single, -⟩ := member
      rw [single] at further
      exact absurd further (Nat.not_succ_le_self 1)
  · intro behind _ nonempty first longest further
    obtain ⟨_, _, _, _, joins⟩ := longest.exists_joins nonempty further
    exact joins.eq_comment rfl rfl (by decide) (by decide)

/-- What maximal munch does behind its first portions. -/
theorem of_append {before after : List Portion}
    (munches : Munches text (before ++ after) leftover) :
    Munches (Portion.textOf after ++ leftover) after leftover := by
  induction before generalizing text with
  | nil =>
      rw [List.nil_append] at munches
      exact munches.text_eq ▸ munches
  | cons portion before ih =>
      cases munches with
      | munch _ others => exact ih others

/-- A fraction that is reached is a portion of its own. -/
theorem fraction_of_reached {before after : List Portion} {whole fraction : List Char}
    (munches : Munches text (before ++ after) leftover)
    (reached : Portion.textOf after ++ leftover = whole ++ '.' :: fraction ++ back)
    (first : whole ∈ Shape.digits.language) (second : fraction ∈ Shape.digits.language)
    (stop : ∀ c ∈ back.head?, c.isDigit = false) :
    ∃ later, after = ⟨.fractional, whole ++ '.' :: fraction⟩ :: later := by
  have member : whole ++ '.' :: fraction ∈ Shape.fractional.language :=
    Shape.mem_fractional.mpr ⟨whole, fraction, rfl, first, second⟩
  have rest := munches.of_append
  rw [reached] at rest
  generalize same : whole ++ '.' :: fraction ++ back = ahead at rest
  cases rest with
  | stuck unmatched => exact absurd member (unmatched _ _ ⟨back, same⟩)
  | @munch portion portions _ _ longest _ =>
      rw [← same] at longest
      exact ⟨portions, by rw [longest.eq_of_first? (Lexeme.first?_fraction first second stop) member]⟩

end Munches

/-- What maximal munch does with words, fractions, arrows and pairs of slashes. -/
structure KeepsTogether (text : List Char) (portions : List Portion) (leftover : List Char) :
    Prop where
  word : ∀ {front word back : List Char}, text = front ++ word ++ back →
    IsMaximalWord front word back → StaysWhole portions front ⟨.word, word⟩
  keyword : ∀ word : List Char, (Portion.lexeme ⟨.word, word⟩).kind? ≠ some .identifier ↔
    String.ofList word ∈ ["func", "return", "if", "else"]
  fraction : ∀ {front whole fraction back : List Char},
    text = front ++ (whole ++ '.' :: fraction) ++ back → whole ∈ Shape.digits.language →
    fraction ∈ Shape.digits.language →
    (∀ c ∈ front.getLast?, Pattern.isWordPart c = false ∧ c ≠ '.') →
    (∀ c ∈ back.head?, c.isDigit = false) →
    StaysWhole portions front ⟨.fractional, whole ++ '.' :: fraction⟩
  reached : ∀ {before after : List Portion} {whole fraction back : List Char},
    portions = before ++ after →
    Portion.textOf after ++ leftover = whole ++ '.' :: fraction ++ back →
    whole ∈ Shape.digits.language → fraction ∈ Shape.digits.language →
    (∀ c ∈ back.head?, c.isDigit = false) →
    ∃ later, after = ⟨.fractional, whole ++ '.' :: fraction⟩ :: later
  arrow : ∀ {front back : List Char}, text = front ++ ['-', '>'] ++ back →
    StaysWhole portions front ⟨.arrow, ['-', '>']⟩
  slashes : ∀ {front back : List Char}, text = front ++ ['/', '/'] ++ back →
    StaysWhole portions front ⟨.comment, ['/', '/']⟩

/-- A word has another kind than an identifier exactly if the whole word is reserved. -/
theorem Portion.kind?_lexeme_word (word : List Char) :
    (Portion.lexeme ⟨.word, word⟩).kind? ≠ some .identifier ↔
      String.ofList word ∈ ["func", "return", "if", "else"] := by
  rw [lexeme, Shape.kind?, ne_eq, Option.some.injEq, TokenKind.ofWord]
  generalize String.ofList word = text
  unfold TokenKind.ofReservedWord?
  split
  · decide
  · decide
  · decide
  · decide
  · next noFunc noReturn noIf noElse =>
      simp only [Option.getD_none, not_true, List.mem_cons, List.not_mem_nil, or_false, false_iff]
      rintro (same | same | same | same)
      · exact noFunc same
      · exact noReturn same
      · exact noIf same
      · exact noElse same

theorem Munches.keepsTogether {text leftover : List Char} {portions : List Portion}
    (munches : Munches text portions leftover) : KeepsTogether text portions leftover where
  word := munches.word_staysWhole
  keyword := Portion.kind?_lexeme_word
  fraction := munches.fraction_staysWhole
  reached := fun split => (split ▸ munches).fraction_of_reached
  arrow := munches.arrow_staysWhole
  slashes := munches.slashes_staysWhole

/--
The first match is the longest match. Each source is cut by maximal munch over the
languages of the patterns in one way, and this is how its lexemes are cut off and what
the source is split into.
-/
theorem tokenize_munches (source : String) (file? : Option String) :
    List.Forall₂ Pattern.Recognises Pattern.all Shape.all ∧
      ∃ portions leftover, Munches source.toList portions leftover ∧
        (∀ portions' leftover', Munches source.toList portions' leftover' →
          portions' = portions ∧ leftover' = leftover) ∧
        Cut.ofText source.toList = ⟨portions.map Portion.lexeme, leftover⟩ ∧
        (tokenize source file?).outcome =
          Portion.outcome (file?.getD Reader.defaultFile) portions leftover ∧
        KeepsTogether source.toList portions leftover := by
  obtain ⟨portions, leftover, munches⟩ := Munches.exists_munches source.toList
  exact ⟨Pattern.recognises_all, portions, leftover, munches, fun _ _ => munches.unique,
    munches.cut_eq, munches.outcome_tokenize, munches.keepsTogether⟩

end ExprLang
