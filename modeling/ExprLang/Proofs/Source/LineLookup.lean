import ExprLang.Proofs.Text.Bytes
import ExprLang.Source.Line

/-!
# Looking up lines

The line that a byte of a source is found in is a whole line: it starts after a
line feed or with the source, it holds no line feed but at its end, and it has
one there unless it is the last line. Its number counts the line feeds before it,
and the byte is as far from the start of the line as the place that is found.
-/

namespace ExprLang

open Text

namespace Line

/-! ## The first line -/

theorem split_fst_ne_nil {text : List Char} (nonempty : text ≠ []) : (split text).1 ≠ [] := by
  cases text with
  | nil => exact absurd rfl nonempty
  | cons c rest =>
      unfold split
      split <;> exact List.cons_ne_nil _ _

/-- A first line holds no line feed before its last character. -/
theorem not_mem_dropLast_split (text : List Char) : '\n' ∉ (split text).1.dropLast := by
  induction text with
  | nil => exact List.not_mem_nil
  | cons c rest ih =>
      unfold split
      split
      · exact List.not_mem_nil
      · next other =>
          dsimp only
          cases line : (split rest).1 with
          | nil => exact List.not_mem_nil
          | cons d more =>
              rw [List.dropLast_cons_of_ne_nil (List.cons_ne_nil d more), ← line]
              exact List.not_mem_cons_of_ne_of_not_mem (Ne.symm other) ih

/-- A first line that others follow ends with a line feed. -/
theorem getLast?_split {text : List Char} (followed : (split text).2 ≠ []) :
    (split text).1.getLast? = some '\n' := by
  induction text with
  | nil => exact absurd rfl followed
  | cons c rest ih =>
      unfold split at followed ⊢
      split
      · next same => rw [same]; rfl
      · next other =>
          rw [if_neg other] at followed
          have last := ih followed
          have nonempty : (split rest).1 ≠ [] := by
            intro empty
            rw [empty] at last
            cases last
          exact (List.getLast?_cons_of_ne_nil nonempty).trans last

/-! ## Lines of a text -/

/-- A line between two parts of a text, whose first line has the given number. -/
structure IsBetween (line : Line) (first : Nat) (before after : List Char) : Prop where
  number : line.number = first + before.count '\n'
  starts : ∀ last ∈ before.getLast?, last = '\n'
  nonempty : line.text ≠ []
  unbroken : '\n' ∉ line.text.dropLast
  ends : after ≠ [] → line.text.getLast? = some '\n'

theorem count_of_getLast? {line : List Char} (unbroken : '\n' ∉ line.dropLast)
    (ends : line.getLast? = some '\n') : line.count '\n' = 1 := by
  rw [← List.dropLast_append_getLast? _ ends, List.count_append,
    List.count_eq_zero_of_not_mem unbroken]
  rfl

/-- A line of the later text is also one of the whole text, after its first line. -/
theorem IsBetween.after_first {line : Line} {number : Nat} {first before after : List Char}
    (between : line.IsBetween (number + 1) before after) (unbroken : '\n' ∉ first.dropLast)
    (ends : first.getLast? = some '\n') : line.IsBetween number (first ++ before) after where
  number := by
    rw [between.number, List.count_append, count_of_getLast? unbroken ends, Nat.add_assoc]
  starts := by
    intro last final
    cases before with
    | nil =>
        rw [List.append_nil, ends] at final
        exact (Option.some.inj final).symm
    | cons c rest =>
        rw [List.getLast?_append_cons] at final
        exact between.starts last final
  nonempty := between.nonempty
  unbroken := between.unbroken
  ends := between.ends

/-- The line between two parts of a text holds the byte, or ends the text just before it. -/
structure Holds (line : Line) (first : Nat) (text : List Char) (byte : Nat)
    (before after : List Char) : Prop where
  between : line.IsBetween first before after
  whole : text = before ++ line.text ++ after
  place : byteLength before + line.offset = byte
  within : byte < byteLength text → line.offset < byteLength line.text
  past : byte = byteLength text → line.offset = byteLength line.text ∧ after = []

theorem Holds.after_first {line : Line} {number byte : Nat} {first later before after : List Char}
    (holds : line.Holds (number + 1) later byte before after) (unbroken : '\n' ∉ first.dropLast)
    (ends : first.getLast? = some '\n') :
    line.Holds number (first ++ later) (byteLength first + byte) (first ++ before) after where
  between := holds.between.after_first unbroken ends
  whole := by rw [holds.whole, List.append_assoc first, List.append_assoc first]
  place := by rw [byteLength_append, Nat.add_assoc, holds.place]
  within := by
    rw [byteLength_append]
    exact fun less => holds.within (by omega)
  past := by
    rw [byteLength_append]
    exact fun same => holds.past (by omega)

/--
A byte of a text is found in the line that holds it, and the byte just past the
text at the end of its last line.
-/
theorem exists_within? {text : List Char} (nonempty : text ≠ []) (number : Nat) {byte : Nat}
    (inside : byte ≤ byteLength text) :
    ∃ line before after, within? number text byte = some line ∧
      line.Holds number text byte before after := by
  -- the lines after the first one are those of a shorter text
  induction count : text.length using Nat.strongRecOn generalizing text number byte with
  | ind _ ih =>
      cases text with
      | nil => exact absurd rfl nonempty
      | cons c rest =>
          have whole := split_append (c :: rest)
          have first := split_fst_ne_nil nonempty
          have unbroken := not_mem_dropLast_split (c :: rest)
          have ends : (split (c :: rest)).2 ≠ [] → _ := getLast?_split
          have shorter := split_rest_length_lt c rest
          rw [within?]
          generalize (split (c :: rest)).1 = line at *
          generalize (split (c :: rest)).2 = later at *
          have bytes := congrArg byteLength whole
          rw [byteLength_append] at bytes
          have between : ∀ offset, IsBetween ⟨number, line, offset⟩ number [] later :=
            fun offset => ⟨rfl, fun _ final => absurd final (by simp), first, unbroken, ends⟩
          split
          · next less =>
              exact ⟨_, [], later, rfl, between byte, whole.symm, Nat.zero_add _, fun _ => less,
                fun same => by omega⟩
          · next further =>
              split
              · next last =>
                  rw [List.isEmpty_iff.mp last] at between bytes whole
                  rw [byteLength_nil] at bytes
                  have same : byteLength line = byte := by omega
                  exact ⟨_, [], [], rfl, between _, whole.symm, (Nat.zero_add _).trans same,
                    fun less => by omega, fun _ => ⟨rfl, rfl⟩⟩
              · next more =>
                  have followed : later ≠ [] := fun empty => more (List.isEmpty_iff.mpr empty)
                  obtain ⟨found, before, after, lookup, holds⟩ :=
                    ih later.length (count ▸ shorter) followed (number + 1)
                      (show byte - byteLength line ≤ byteLength later by omega) rfl
                  have lifted := holds.after_first unbroken (ends followed)
                  rw [whole, Nat.add_sub_cancel' (Nat.le_of_not_lt further)] at lifted
                  exact ⟨found, _, after, lookup, lifted⟩

/-! ## Lines of a source -/

/-- The line is one of the lines of the source, with its number. -/
def IsOf (line : Line) (source : String) : Prop :=
  ∃ before after, source.toList = before ++ line.text ++ after ∧ line.IsBetween 1 before after

/-- The line is the last one of the source, with its number. -/
def IsLastOf (line : Line) (source : String) : Prop :=
  ∃ before, source.toList = before ++ line.text ∧ line.IsBetween 1 before []

/-- The place in the line is the start of the given text. -/
def Shows (line : Line) (text : List Char) : Prop :=
  ∃ left right, line.text = left ++ text ++ right ∧ line.offset = byteLength left

variable {source : String}

theorem at?_of_le {byte : Nat} (inside : byte ≤ source.utf8ByteSize) :
    at? source byte = within? 1 source.toList byte :=
  if_neg (Nat.not_lt.mpr inside)

/-- The line that holds the start of a piece without line breaks inside shows the piece. -/
theorem Holds.shows {line : Line} {number : Nat} {front piece rest before after : List Char}
    (holds : line.Holds number (front ++ piece ++ rest) (byteLength front) before after)
    (nonempty : piece ≠ []) (solid : '\n' ∉ piece.dropLast) : line.Shows piece := by
  have positive := byteLength_pos nonempty
  have place := holds.place
  have inner := holds.within (by rw [byteLength_append, byteLength_append]; omega)
  have cuts : before ++ (line.text ++ after) = front ++ (piece ++ rest) := by
    rw [← List.append_assoc, ← List.append_assoc, ← holds.whole]
  obtain ⟨left, rfl, later⟩ := exists_eq_append_of_byteLength_le cuts (by omega)
  rw [byteLength_append] at place
  obtain ⟨right, ahead, tail⟩ := exists_eq_append_of_byteLength_le later.symm (by omega)
  rcases List.append_eq_append_iff.mp tail with ⟨more, same, _⟩ | ⟨more, same, rest'⟩
  · exact ⟨left, more, by rw [ahead, same, List.append_assoc], by omega⟩
  · have none : more = [] := by
      -- if the piece went on after the line, it would hold the line feed that ends the line
      by_contra further
      have followed : after ≠ [] := by
        rw [rest']
        exact List.append_ne_nil_of_left_ne_nil further _
      have ends := holds.between.ends followed
      have filled : right ≠ [] := by
        rintro rfl
        rw [ahead, List.append_nil] at inner
        omega
      rw [ahead, List.getLast?_append_of_ne_nil _ filled] at ends
      refine solid ?_
      rw [same, List.dropLast_append_of_ne_nil further]
      exact List.mem_append_left _ (List.mem_of_getLast? ends)
    subst none
    rw [List.append_nil] at same
    exact ⟨left, [], by rw [ahead, same, List.append_nil], by omega⟩

/--
A piece of a source without line breaks inside is found in the line that its start
is in, after the end of the text in front of it.
-/
theorem exists_at?_of_piece {front piece rest : List Char}
    (whole : source.toList = front ++ piece ++ rest) (nonempty : piece ≠ [])
    (solid : '\n' ∉ piece.dropLast) :
    ∃ line left right, at? source (byteLength front) = some line ∧ line.IsOf source ∧
      left <:+ front ∧ '\n' ∉ left ∧ line.text = left ++ piece ++ right ∧
      line.offset = byteLength left := by
  have filled : front ++ piece ++ rest ≠ [] := by simp [nonempty]
  have inside : byteLength front ≤ byteLength (front ++ piece ++ rest) := by
    rw [List.append_assoc, byteLength_append]
    exact Nat.le_add_right _ _
  obtain ⟨line, before, after, lookup, holds⟩ := exists_within? filled 1 inside
  obtain ⟨left, right, text, offset⟩ := holds.shows nonempty solid
  have inside' : byteLength front ≤ source.utf8ByteSize := by
    rwa [← byteLength_toList, whole]
  rw [at?_of_le inside', whole]
  refine ⟨line, left, right, lookup, ⟨before, after, whole.trans holds.whole, holds.between⟩,
    ⟨before, ?_⟩, fun member => holds.between.unbroken ?_, text, offset⟩
  · have place := holds.place
    have cuts : (before ++ left) ++ (piece ++ (right ++ after)) = front ++ (piece ++ rest) := by
      have whole' := holds.whole
      rw [text] at whole'
      simpa using whole'.symm
    rw [offset, ← byteLength_append] at place
    exact (append_inj_of_byteLength cuts place).1
  · rw [text, List.append_assoc, List.dropLast_append_of_ne_nil (by simp [nonempty])]
    exact List.mem_append_left _ member

/-- A piece of a source without line breaks inside is shown by the line that its start is in. -/
theorem exists_at?_shows {front piece rest : List Char}
    (whole : source.toList = front ++ piece ++ rest) (nonempty : piece ≠ [])
    (solid : '\n' ∉ piece.dropLast) :
    ∃ line, at? source (byteLength front) = some line ∧ line.IsOf source ∧ line.Shows piece := by
  obtain ⟨line, left, right, lookup, isOf, _, _, text, offset⟩ :=
    exists_at?_of_piece whole nonempty solid
  exact ⟨line, lookup, isOf, left, right, text, offset⟩

/-- The end of a source is found at the end of its last line. -/
theorem exists_at?_end (nonempty : source ≠ "") :
    ∃ line, at? source source.utf8ByteSize = some line ∧ line.IsLastOf source ∧
      line.offset = byteLength line.text := by
  have filled : source.toList ≠ [] := by
    intro empty
    exact nonempty (String.toList_eq_nil_iff.mp empty)
  obtain ⟨line, before, after, lookup, holds⟩ := exists_within? filled 1 (Nat.le_refl _)
  obtain ⟨place, rfl⟩ := holds.past rfl
  have whole := holds.whole
  rw [List.append_nil] at whole
  rw [byteLength_toList] at lookup
  exact ⟨line, (at?_of_le (Nat.le_refl _)).trans lookup, ⟨before, whole, holds.between⟩, place⟩

/-! ## What looking up finds -/

/-- A line that ends with a line feed and holds no other one. -/
structure IsTerminated (text : List Char) : Prop where
  unbroken : '\n' ∉ text.dropLast
  ends : text.getLast? = some '\n'

/--
The line that the byte of a text should be found in: it comes after the earlier
lines, which its number counts on from the first one, and its offset is the rest
of the byte. The byte just past the text belongs to the end of the last line.
-/
structure IsFound (line : Line) (first : Nat) (text : List Char) (byte : Nat)
    (earlier : List (List Char)) (after : List Char) : Prop where
  whole : text = earlier.flatten ++ line.text ++ after
  terminated : ∀ before ∈ earlier, IsTerminated before
  number : line.number = first + earlier.length
  nonempty : line.text ≠ []
  unbroken : '\n' ∉ line.text.dropLast
  ends : after ≠ [] → line.text.getLast? = some '\n'
  inside : byte ≤ byteLength text
  place : byteLength earlier.flatten + line.offset = byte
  within : byte < byteLength text → line.offset < byteLength line.text
  past : byte = byteLength text → line.offset = byteLength line.text ∧ after = []

/-- A text that ends with a line feed, if it is not empty, is made of terminated lines. -/
theorem exists_terminated {text : List Char} (ends : ∀ last ∈ text.getLast?, last = '\n') :
    ∃ lines : List (List Char), text = lines.flatten ∧ (∀ line ∈ lines, IsTerminated line) ∧
      lines.length = text.count '\n' := by
  induction count : text.length using Nat.strongRecOn generalizing text with
  | ind _ ih =>
      cases text with
      | nil => exact ⟨[], rfl, nofun, rfl⟩
      | cons c rest =>
          have whole := split_append (c :: rest)
          have unbroken := not_mem_dropLast_split (c :: rest)
          have followed : (split (c :: rest)).2 ≠ [] → _ := getLast?_split
          have shorter := split_rest_length_lt c rest
          generalize (split (c :: rest)).1 = line at *
          generalize (split (c :: rest)).2 = later at *
          rw [← whole] at ends ⊢
          have terminated : line.getLast? = some '\n' := by
            cases later with
            | nil =>
                rw [List.append_nil] at whole ends
                have final := List.getLast?_eq_some_getLast (whole ▸ List.cons_ne_nil c rest)
                rw [final, ends _ final]
            | cons d more => exact followed (List.cons_ne_nil d more)
          obtain ⟨lines, same, all, number⟩ := ih later.length (count ▸ shorter)
            (fun last final => ends last (List.mem_getLast?_append_of_mem_getLast? final)) rfl
          refine ⟨line :: lines, by rw [List.flatten_cons, ← same],
            List.forall_mem_cons.mpr ⟨⟨unbroken, terminated⟩, all⟩, ?_⟩
          rw [List.length_cons, number, List.count_append, count_of_getLast? unbroken terminated,
            Nat.add_comm]

theorem Holds.exists_isFound {line : Line} {first byte : Nat} {text before after : List Char}
    (holds : line.Holds first text byte before after) (inside : byte ≤ byteLength text) :
    ∃ earlier, line.IsFound first text byte earlier after := by
  obtain ⟨earlier, rfl, terminated, number⟩ := exists_terminated holds.between.starts
  exact ⟨earlier, holds.whole, terminated, by rw [holds.between.number, number],
    holds.between.nonempty, holds.between.unbroken, holds.between.ends, inside, holds.place,
    holds.within, holds.past⟩

/-- A text is split after a first line that is complete. -/
theorem split_append_of_unbroken {line after : List Char} (nonempty : line ≠ [])
    (unbroken : '\n' ∉ line.dropLast) (ends : after ≠ [] → line.getLast? = some '\n') :
    split (line ++ after) = (line, after) := by
  induction line with
  | nil => exact absurd rfl nonempty
  | cons c rest ih =>
      rw [List.cons_append, split]
      cases rest with
      | nil =>
          split
          · rfl
          · next other =>
              have none : after = [] := by
                by_contra followed
                exact other (Option.some.inj (ends followed))
              rw [none]
              rfl
      | cons d more =>
          rw [List.dropLast_cons_of_ne_nil (List.cons_ne_nil d more)] at unbroken
          rw [if_neg (List.ne_of_not_mem_cons unbroken).symm,
            ih (List.cons_ne_nil d more) (List.not_mem_of_not_mem_cons unbroken)
              fun followed => (List.getLast?_cons_cons ..).symm.trans (ends followed)]

/-- Looking into a text that starts with a complete line. -/
theorem within?_append {line after : List Char} (nonempty : line ≠ [])
    (unbroken : '\n' ∉ line.dropLast) (ends : after ≠ [] → line.getLast? = some '\n')
    (number byte : Nat) :
    within? number (line ++ after) byte =
      if byte < byteLength line then some ⟨number, line, byte⟩
      else if after.isEmpty then some ⟨number, line, byteLength line⟩
      else within? (number + 1) after (byte - byteLength line) := by
  have cut := split_append_of_unbroken nonempty unbroken ends
  obtain ⟨c, rest, shape⟩ :=
    List.exists_cons_of_ne_nil (List.append_ne_nil_of_left_ne_nil nonempty after)
  rw [shape] at cut ⊢
  rw [within?, cut]

/-- The byte is found in no other line than the one that it should be found in. -/
theorem IsFound.within?_eq {line : Line} {first byte : Nat} {text after : List Char}
    {earlier : List (List Char)} (found : line.IsFound first text byte earlier after) :
    within? first text byte = some line := by
  obtain ⟨number, shown, offset⟩ := line
  obtain ⟨rfl, terminated, rfl, nonempty, unbroken, ends, inside, place, within, past⟩ := found
  dsimp only at *
  induction earlier generalizing first byte with
  | nil =>
      simp only [List.flatten_nil, List.nil_append, byteLength_nil, Nat.zero_add] at *
      subst place
      rw [within?_append nonempty unbroken ends]
      split
      · rfl
      · next further =>
          have last : offset = byteLength (shown ++ after) :=
            Nat.le_antisymm inside (Nat.le_of_not_lt fun less => further (within less))
          obtain ⟨same, rfl⟩ := past last
          rw [same]
          rfl
  | cons before earlier ih =>
      obtain ⟨⟨unbroken', ends'⟩, others⟩ := List.forall_mem_cons.mp terminated
      have filled : before ≠ [] := by
        rintro rfl
        cases ends'
      simp only [List.flatten_cons, List.append_assoc, byteLength_append, List.length_cons] at *
      rw [within?_append filled unbroken' (fun _ => ends'), if_neg (by omega),
        if_neg (by simp [nonempty])]
      refine (ih others (by omega) (by omega) (fun less => within (by omega))
        fun same => past (by omega)).trans ?_
      rw [Nat.add_assoc, Nat.add_comm 1]

theorem at?_of_isFound {line : Line} {byte : Nat} {earlier : List (List Char)} {after : List Char}
    (found : line.IsFound 1 source.toList byte earlier after) : at? source byte = some line :=
  (at?_of_le (byteLength_toList source ▸ found.inside)).trans found.within?_eq

theorem exists_isFound {byte : Nat} (nonempty : source ≠ "") (inside : byte ≤ source.utf8ByteSize) :
    ∃ line earlier after, IsFound line 1 source.toList byte earlier after := by
  have filled : source.toList ≠ [] := fun empty => nonempty (String.toList_eq_nil_iff.mp empty)
  rw [← byteLength_toList] at inside
  obtain ⟨line, _, after, _, holds⟩ := exists_within? filled 1 inside
  obtain ⟨earlier, found⟩ := holds.exists_isFound inside
  exact ⟨line, earlier, after, found⟩

theorem at?_eq_none {byte : Nat} (missing : source.utf8ByteSize < byte ∨ source = "") :
    at? source byte = none := by
  unfold at?
  split
  · rfl
  · next inside =>
      obtain rfl := missing.resolve_left inside
      simp [within?]

/--
Looking up a byte of a source finds the line that it should be found in and no
other one, and it finds none exactly if the byte is past the end or the source
has no line.
-/
theorem at?_finds (source : String) (byte : Nat) :
    (at? source byte = none ↔ source.utf8ByteSize < byte ∨ source = "") ∧
      ∀ line, at? source byte = some line ↔
        ∃ earlier after, line.IsFound 1 source.toList byte earlier after := by
  by_cases missing : source.utf8ByteSize < byte ∨ source = ""
  · have nothing := at?_eq_none missing
    refine ⟨iff_of_true nothing missing, fun line => iff_of_false (by simp [nothing]) ?_⟩
    rintro ⟨_, _, found⟩
    rw [at?_of_isFound found] at nothing
    cases nothing
  · obtain ⟨inside, nonempty⟩ := not_or.mp missing
    obtain ⟨line, earlier, after, found⟩ := exists_isFound nonempty (Nat.le_of_not_lt inside)
    have given := at?_of_isFound found
    refine ⟨iff_of_false (by simp [given]) missing, fun other => ⟨fun same => ?_, ?_⟩⟩
    · cases given.symm.trans same
      exact ⟨earlier, after, found⟩
    · rintro ⟨_, _, found'⟩
      exact at?_of_isFound found'

end Line

end ExprLang
