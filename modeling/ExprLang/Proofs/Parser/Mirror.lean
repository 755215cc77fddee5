import ExprLang.Parser.Basic

/-!
# Courses and mirrored runs

A run of a parser reads past some tokens and notes some events; together they
are the course of the run. A second parser mirrors a first one when it follows
the same course to the same result from every cursor with these tokens ahead,
whatever else comes after the token at which the first run stops. Mirroring is
kept by every construction of parsers. It tells at once that the rounds of a
recursion suffice, that a run looks no further than the token it stops at, and
that a higher limit of nesting changes no result but that of the limit.
-/

namespace ExprLang

/-! ## Courses -/

/-- The tokens that a run reads past, and the events that it notes with the newest first. -/
structure Course where
  tokens : List Token
  events : List Event

namespace Cursor

/-- The current token and those after it. -/
def remaining (cursor : Cursor) : List Token :=
  cursor.current :: cursor.unread

/-- Two cursors that no step can tell apart before it reads on. -/
structure Resembles (first second : Cursor) : Prop where
  current : second.current = first.current
  depth : second.depth = first.depth
  ends : first.current.kind ≠ .endOfInput → (second.unread = [] ↔ first.unread = [])

theorem Resembles.refl (cursor : Cursor) : cursor.Resembles cursor :=
  ⟨rfl, rfl, fun _ => Iff.rfl⟩

theorem remaining_step (cursor : Cursor) {token : Token} {rest : List Token}
    (more : cursor.unread = token :: rest) :
    cursor.remaining = cursor.current :: (cursor.step token rest).remaining := by
  rw [remaining, more]
  rfl

end Cursor

namespace Course

def empty : Course :=
  ⟨[], []⟩

/-- A course followed by another one. -/
def append (first second : Course) : Course :=
  ⟨first.tokens ++ second.tokens, second.events ++ first.events⟩

/-- A course leads from one cursor to another if its tokens and its events lie between them. -/
structure Leads (course : Course) (start stop : Cursor) : Prop where
  remaining : start.remaining = course.tokens ++ stop.remaining
  depth : stop.depth = start.depth
  trace : stop.trace = course.events ++ start.trace

namespace Leads

theorem refl (cursor : Cursor) : empty.Leads cursor cursor :=
  ⟨rfl, rfl, rfl⟩

theorem trans {first second : Course} {start middle stop : Cursor}
    (toMiddle : first.Leads start middle) (toStop : second.Leads middle stop) :
    (first.append second).Leads start stop where
  remaining := by
    rw [toMiddle.remaining, toStop.remaining]
    exact (List.append_assoc _ _ _).symm
  depth := toStop.depth.trans toMiddle.depth
  trace := by
    rw [toStop.trace, toMiddle.trace]
    exact (List.append_assoc _ _ _).symm

theorem eq_of_empty {start stop : Cursor} (leads : empty.Leads start stop) : stop = start := by
  obtain ⟨remaining, depth, trace⟩ := leads
  cases start
  cases stop
  cases remaining
  cases depth
  cases trace
  rfl

theorem unread_length {course : Course} {start stop : Cursor} (leads : course.Leads start stop) :
    start.unread.length = course.tokens.length + stop.unread.length := by
  have lengths := congrArg List.length leads.remaining
  simp only [Cursor.remaining, List.length_append, List.length_cons] at lengths
  omega

theorem unread_length_le {course : Course} {start stop : Cursor}
    (leads : course.Leads start stop) : stop.unread.length ≤ start.unread.length := by
  rw [leads.unread_length]
  exact Nat.le_add_left _ _

theorem unique {first second : Course} {start stop : Cursor}
    (leads : first.Leads start stop) (others : second.Leads start stop) : first = second := by
  have tokens := List.append_cancel_right (leads.remaining.symm.trans others.remaining)
  have events := List.append_cancel_right (leads.trace.symm.trans others.trace)
  cases first
  cases second
  cases tokens
  cases events
  rfl

/-- A step from a cursor has the current token as its course. -/
theorem step (cursor : Cursor) {token : Token} {rest : List Token}
    (more : cursor.unread = token :: rest) :
    (Course.mk [cursor.current] [.read token]).Leads cursor (cursor.step token rest) :=
  ⟨cursor.remaining_step more, rfl, rfl⟩

theorem note (cursor : Cursor) (event : Event) :
    (Course.mk [] [event]).Leads cursor (cursor.note event) :=
  ⟨rfl, rfl, rfl⟩

theorem eq_note {event : Event} {start stop : Cursor}
    (leads : (Course.mk [] [event]).Leads start stop) : stop = start.note event := by
  obtain ⟨remaining, depth, trace⟩ := leads
  cases start
  cases stop
  cases remaining
  cases depth
  cases trace
  rfl

/-- Two courses in a row that are followed from another cursor have a place in between. -/
theorem split {first second : Course} {middle stop start' stop' : Cursor}
    (toStop : second.Leads middle stop) (depth : start'.depth = middle.depth)
    (whole : (first.append second).Leads start' stop') (same : stop.Resembles stop') :
    ∃ middle', first.Leads start' middle' ∧ second.Leads middle' stop' ∧
      middle.Resembles middle' := by
  obtain ⟨remaining, wholeDepth, trace⟩ := whole
  have heads := toStop.remaining
  simp only [append, List.append_assoc] at remaining trace
  cases read : second.tokens with
  | nil =>
      rw [read] at remaining heads
      simp only [Cursor.remaining, List.nil_append, List.cons.injEq] at heads
      refine ⟨⟨stop'.current, stop'.unread, start'.depth, first.events ++ start'.trace⟩,
        ⟨remaining, rfl, rfl⟩, ⟨by rw [read]; rfl, wholeDepth, trace⟩, ?_, depth, ?_⟩
      · exact same.current.trans heads.1.symm
      · intro unfinished
        rw [heads.2]
        exact same.ends (heads.1 ▸ unfinished)
  | cons token rest =>
      rw [read] at remaining heads
      simp only [Cursor.remaining, List.cons_append, List.cons.injEq] at heads
      refine ⟨⟨token, rest ++ stop'.remaining, start'.depth, first.events ++ start'.trace⟩,
        ⟨remaining, rfl, rfl⟩, ⟨by rw [read]; rfl, wholeDepth, trace⟩, heads.1.symm, depth, ?_⟩
      intro _
      rw [heads.2]
      simp [Cursor.remaining]

end Leads

end Course
/-! ## Mirrored runs -/

/-- Whether a fault is that of the limit of nesting. -/
def Fault.IsTooDeep (fault : Fault) : Prop :=
  ∃ limit, fault.cause = .nestedTooDeeply limit

/--
The second settings let a run end with the same result: their limit is no lower,
and it is the same if the run ends at the limit.
-/
structure Settings.Keep {α : Type} (first second : Settings) (result : Except Fault α) : Prop where
  file : second.file = first.file
  deeper : first.maxDepth ≤ second.maxDepth
  limit : ∀ fault, result = .error fault → fault.IsTooDeep → second.maxDepth = first.maxDepth

theorem Settings.Keep.refl {α : Type} (settings : Settings) (result : Except Fault α) :
    settings.Keep settings result :=
  ⟨rfl, Nat.le_refl _, fun _ _ _ => rfl⟩

theorem Settings.Keep.of_ok {α : Type} {first second : Settings} {value : α}
    (file : second.file = first.file) (deeper : first.maxDepth ≤ second.maxDepth) :
    first.Keep second (.ok value) :=
  ⟨file, deeper, nofun⟩

theorem Settings.Keep.of_error {α : Type} {first second : Settings} {fault : Fault}
    (file : second.file = first.file) (deeper : first.maxDepth ≤ second.maxDepth)
    (shallow : ¬ fault.IsTooDeep) : first.Keep second (.error fault : Except Fault α) :=
  ⟨file, deeper, fun other same deep => by
    cases same
    exact absurd deep shallow⟩

namespace Parser

variable {α β : Type}

/--
The run of the first parser from a cursor has a course, and if that course has
fewer tokens than the bound, the second parser follows it to the same result
from wherever it leads to a cursor that resembles the last one.
-/
def MirroredAt (bound : Nat) (first second : Parser α) (settings : Settings) (cursor : Cursor) :
    Prop :=
  ∃ course : Course, course.Leads cursor (first.run settings cursor).2 ∧
    (course.tokens.length < bound → ∀ settings' start stop,
      settings.Keep settings' (first.run settings cursor).1 →
      start.depth = cursor.depth → course.Leads start stop →
      (first.run settings cursor).2.Resembles stop →
      second.run settings' start = ((first.run settings cursor).1, stop))

/-- The second parser mirrors all runs of the first one with few enough tokens to come. -/
def Mirrored (ahead bound : Nat) (first second : Parser α) : Prop :=
  ∀ settings cursor, cursor.unread.length < ahead →
    MirroredAt bound first second settings cursor

theorem MirroredAt.unread_length_le {bound : Nat} {first second : Parser α} {settings : Settings}
    {cursor : Cursor} (mirrored : MirroredAt bound first second settings cursor) :
    (first.run settings cursor).2.unread.length ≤ cursor.unread.length := by
  obtain ⟨_, leads, _⟩ := mirrored
  exact leads.unread_length_le

theorem MirroredAt.weaken {few many : Nat} {first second : Parser α} {settings : Settings}
    {cursor : Cursor} (mirrored : MirroredAt many first second settings cursor)
    (fewer : few ≤ many) : MirroredAt few first second settings cursor := by
  obtain ⟨course, leads, follows⟩ := mirrored
  exact ⟨course, leads, fun short => follows (Nat.lt_of_lt_of_le short fewer)⟩

theorem Mirrored.weaken {near far few many : Nat} {first second : Parser α}
    (mirrored : Mirrored far many first second) (nearer : near ≤ far) (fewer : few ≤ many) :
    Mirrored near few first second :=
  fun settings cursor short =>
    (mirrored settings cursor (Nat.lt_of_lt_of_le short nearer)).weaken fewer

/-- A parser that reads at least one token wherever it gives a result. -/
def ReadsOn (parser : Parser α) : Prop :=
  ∀ settings cursor value stop, parser.run settings cursor = (.ok value, stop) →
    stop.unread.length < cursor.unread.length

theorem readsOn_advance : ReadsOn advance := by
  intro settings cursor value stop ran
  cases unread : cursor.unread with
  | nil =>
      rw [run_advance_of_nil unread] at ran
      cases ran
  | cons token rest =>
      rw [run_advance_of_cons unread] at ran
      cases ran
      exact Nat.lt_succ_self _

/-! ### Sequences -/

/-- A fault ends the whole sequence, and it does so wherever the first part is mirrored. -/
theorem MirroredAt.bind_of_error {bound : Nat} {first second : Parser α}
    {next next' : α → Parser β} {settings : Settings} {cursor stop : Cursor} {fault : Fault}
    (mirrored : MirroredAt bound first second settings cursor)
    (ran : first.run settings cursor = (.error fault, stop)) :
    MirroredAt bound (first >>= next) (second >>= next') settings cursor := by
  obtain ⟨course, leads, follows⟩ := mirrored
  rw [ran] at leads follows
  refine ⟨course, ?_, ?_⟩
  · rw [run_bind_of_error ran]
    exact leads
  · rw [run_bind_of_error ran]
    intro short settings' start stop' keep depth leads' same
    exact run_bind_of_error (follows short settings' start stop'
      ⟨keep.file, keep.deeper, fun _ same deep => keep.limit _ (by cases same; rfl) deep⟩
      depth leads' same)

/--
The second part of a sequence has to be mirrored where the first part ends, and
the bound for it is lower by the tokens that the first part reads.
-/
theorem MirroredAt.bind {bound : Nat} {first second : Parser α} {next next' : α → Parser β}
    {settings : Settings} {cursor : Cursor}
    (mirrored : MirroredAt bound first second settings cursor)
    (rest : ∀ value middle, first.run settings cursor = (.ok value, middle) →
      MirroredAt (bound - (cursor.unread.length - middle.unread.length))
        (next value) (next' value) settings middle) :
    MirroredAt bound (first >>= next) (second >>= next') settings cursor := by
  cases ran : first.run settings cursor with
  | mk result middle =>
      cases result with
      | error fault => exact mirrored.bind_of_error ran
      | ok value =>
          obtain ⟨more, leads', follows'⟩ := rest value middle ran
          obtain ⟨course, leads, follows⟩ := mirrored
          rw [ran] at leads follows
          have read : cursor.unread.length = course.tokens.length + middle.unread.length :=
            leads.unread_length
          refine ⟨course.append more, ?_, ?_⟩
          · rw [run_bind_of_ok ran]
            exact leads.trans leads'
          · rw [run_bind_of_ok ran]
            intro short settings' start stop keep depth whole same
            simp only [Course.append, List.length_append] at short
            obtain ⟨middle', toMiddle, toStop, similar⟩ :=
              leads'.split (depth.trans leads.depth.symm) whole same
            have through := follows (by omega) settings' start middle'
              ⟨keep.file, keep.deeper, fun _ impossible => by cases impossible⟩
              depth toMiddle similar
            rw [run_bind_of_ok through]
            exact follows' (by omega) settings' middle' stop keep similar.depth toStop same

theorem Mirrored.bind {ahead bound : Nat} {first second : Parser α} {next next' : α → Parser β}
    (mirrored : Mirrored ahead bound first second)
    (rest : ∀ value, Mirrored ahead bound (next value) (next' value)) :
    Mirrored ahead bound (first >>= next) (second >>= next') := by
  intro settings cursor near
  refine (mirrored settings cursor near).bind fun value middle ran => ?_
  have shorter := (mirrored settings cursor near).unread_length_le
  rw [ran] at shorter
  exact (rest value settings middle (Nat.lt_of_le_of_lt shorter near)).weaken (Nat.sub_le _ _)

/-- After a part that reads a token, the rest may be mirrored within lower bounds. -/
theorem Mirrored.bind_of_reads {ahead bound : Nat} {first second : Parser α}
    {next next' : α → Parser β} (mirrored : Mirrored (ahead + 1) (bound + 1) first second)
    (reads : ReadsOn first)
    (rest : ∀ value, Mirrored ahead bound (next value) (next' value)) :
    Mirrored (ahead + 1) (bound + 1) (first >>= next) (second >>= next') := by
  intro settings cursor near
  refine (mirrored settings cursor near).bind fun value middle ran => ?_
  have shorter := reads settings cursor value middle ran
  exact (rest value settings middle (by omega)).weaken (by omega)

/-! ### Steps -/

theorem MirroredAt.of_still {bound : Nat} {first second : Parser α} {settings : Settings}
    {cursor : Cursor} (still : (first.run settings cursor).2 = cursor)
    (same : ∀ settings' start, settings.Keep settings' (first.run settings cursor).1 →
      cursor.Resembles start →
      second.run settings' start = ((first.run settings cursor).1, start)) :
    MirroredAt bound first second settings cursor := by
  refine ⟨.empty, by rw [still]; exact .refl cursor, ?_⟩
  intro _ settings' start stop keep _ leads similar
  rw [still] at similar
  cases leads.eq_of_empty
  exact same settings' _ keep similar

theorem Mirrored.pure {ahead bound : Nat} (value : α) :
    Mirrored ahead bound (Pure.pure value) (Pure.pure value) :=
  fun _ _ _ => .of_still rfl fun _ _ _ _ => rfl

theorem Mirrored.fail {ahead bound : Nat} (fault : Fault) :
    Mirrored ahead bound (Parser.fail fault : Parser α) (Parser.fail fault) :=
  fun _ _ _ => .of_still rfl fun _ _ _ _ => rfl

theorem Mirrored.ofExcept {ahead bound : Nat} (result : Except Fault α) :
    Mirrored ahead bound (Parser.ofExcept result) (Parser.ofExcept result) :=
  fun _ _ _ => .of_still rfl fun _ _ _ _ => rfl

/-- A given result goes on only if it is no fault. -/
theorem MirroredAt.ofExcept {bound : Nat} {result : Except Fault α} {next next' : α → Parser β}
    {settings : Settings} {cursor : Cursor}
    (rest : ∀ value, result = .ok value →
      MirroredAt bound (next value) (next' value) settings cursor) :
    MirroredAt bound (Parser.ofExcept result >>= next) (Parser.ofExcept result >>= next')
      settings cursor := by
  have given : Mirrored (cursor.unread.length + 1) bound (Parser.ofExcept result)
      (Parser.ofExcept result) := .ofExcept result
  refine (given settings cursor (Nat.lt_succ_self _)).bind fun value middle ran => ?_
  rw [run_ofExcept] at ran
  cases ran
  exact (rest value rfl).weaken (Nat.sub_le _ _)

theorem Mirrored.note {ahead bound : Nat} (event : Event) :
    Mirrored ahead bound (Parser.note event) (Parser.note event) := by
  intro settings cursor _
  refine ⟨⟨[], [event]⟩, .note cursor event, ?_⟩
  intro _ settings' start stop _ _ leads _
  rw [run_note, run_note, leads.eq_note]

/-- Looking at the current token gives both parsers the same token. -/
theorem MirroredAt.current {bound : Nat} {next next' : Token → Parser α} {settings : Settings}
    {cursor : Cursor}
    (rest : MirroredAt bound (next cursor.current) (next' cursor.current) settings cursor) :
    MirroredAt bound (Parser.current >>= next) (Parser.current >>= next') settings cursor := by
  have look : MirroredAt bound Parser.current Parser.current settings cursor :=
    .of_still rfl fun _ start _ same => by rw [run_current, run_current, same.current]
  refine look.bind fun token middle ran => ?_
  rw [run_current] at ran
  cases ran
  exact rest.weaken (Nat.sub_le _ _)

theorem Mirrored.current {ahead bound : Nat} {next next' : Token → Parser α}
    (rest : ∀ token, Mirrored ahead bound (next token) (next' token)) :
    Mirrored ahead bound (Parser.current >>= next) (Parser.current >>= next') :=
  fun settings cursor near => .current (rest cursor.current settings cursor near)

theorem MirroredAt.hasTokens {bound : Nat} {next next' : Bool → Parser α} {settings : Settings}
    {cursor : Cursor}
    (rest : MirroredAt bound (next cursor.hasTokens) (next' cursor.hasTokens) settings cursor) :
    MirroredAt bound (Parser.hasTokens >>= next) (Parser.hasTokens >>= next') settings cursor := by
  have look : MirroredAt bound Parser.hasTokens Parser.hasTokens settings cursor :=
    .of_still rfl fun _ start _ same => by
      rw [run_hasTokens, run_hasTokens, Cursor.hasTokens, Cursor.hasTokens, same.current]
  refine look.bind fun token middle ran => ?_
  rw [run_hasTokens] at ran
  cases ran
  exact rest.weaken (Nat.sub_le _ _)

/-- Settings that keep a result have the same file name, so the rest may depend on it. -/
theorem MirroredAt.settings {bound : Nat} {next next' : Settings → Parser α} {given : Settings}
    {cursor : Cursor} (byFile : ∀ other : Settings, other.file = given.file → next' other = next' given)
    (rest : MirroredAt bound (next given) (next' given) given cursor) :
    MirroredAt bound (Parser.settings >>= next) (Parser.settings >>= next') given cursor := by
  obtain ⟨course, leads, follows⟩ := rest
  refine ⟨course, leads, fun short given' start stop keep depth leads' same => ?_⟩
  change (next' given').run given' start = _
  rw [byFile given' keep.file]
  exact follows short given' start stop keep depth leads' same

/-- Reading on from a token other than the end of the input. -/
theorem MirroredAt.advance {bound : Nat} {settings : Settings} {cursor : Cursor}
    (unfinished : cursor.current.kind ≠ .endOfInput) :
    MirroredAt bound Parser.advance Parser.advance settings cursor := by
  cases unread : cursor.unread with
  | nil =>
      refine .of_still (by rw [run_advance_of_nil unread]) fun settings' start _ same => ?_
      rw [run_advance_of_nil unread, run_advance_of_nil ((same.ends unfinished).mpr unread),
        Cursor.pastEnd, Cursor.pastEnd, same.current]
  | cons token rest =>
      refine ⟨⟨[cursor.current], [.read token]⟩, ?_, ?_⟩
      · rw [run_advance_of_cons unread]
        exact .step cursor unread
      · rw [run_advance_of_cons unread]
        intro _ settings' start stop _ _ leads same
        have after : start.unread = token :: stop.unread := by
          have heads := leads.remaining
          simp only [Cursor.remaining, List.cons_append, List.nil_append, List.cons.injEq] at heads
          rw [heads.2, same.current]
          rfl
        rw [run_advance_of_cons after]
        obtain ⟨remaining, depth, trace⟩ := leads
        cases stop
        cases same.current
        cases depth
        cases trace
        rfl

/-- After the step to the next token, the rest may be mirrored within lower bounds. -/
theorem MirroredAt.advance_bind {ahead bound : Nat} {next next' : Token → Parser α}
    {settings : Settings} {cursor : Cursor} (unfinished : cursor.current.kind ≠ .endOfInput)
    (near : cursor.unread.length < ahead + 1)
    (rest : ∀ token, Mirrored ahead bound (next token) (next' token)) :
    MirroredAt (bound + 1) (Parser.advance >>= next) (Parser.advance >>= next')
      settings cursor := by
  refine (MirroredAt.advance unfinished).bind fun value middle ran => ?_
  have shorter := readsOn_advance settings cursor value middle ran
  exact (rest value settings middle (by omega)).weaken (by omega)

theorem mirrored_expectOr {ahead bound : Nat} {kind : TokenKind} {blame : Token → Fault}
    (word : kind ≠ .endOfInput) :
    Mirrored ahead bound (expectOr kind blame) (expectOr kind blame) := by
  intro settings cursor near
  refine .current ?_
  split
  · next same =>
      exact (MirroredAt.advance (same ▸ word)).bind fun _ middle _ =>
        .of_still rfl fun _ _ _ _ => rfl
  · exact .of_still rfl fun _ _ _ _ => rfl

theorem mirrored_skipComma {ahead bound : Nat} : Mirrored ahead bound skipComma skipComma := by
  intro settings cursor near
  refine .current ?_
  split
  · next same =>
      exact (MirroredAt.advance (by rw [same]; decide)).bind fun _ middle _ =>
        .of_still rfl fun _ _ _ _ => rfl
  · exact .of_still rfl fun _ _ _ _ => rfl

theorem mirrored_unexpected {ahead bound : Nat} (message : String) :
    Mirrored ahead bound (unexpected message : Parser α) (unexpected message) :=
  .current fun _ => .fail _

/-- A level of nesting is left again, and a higher limit leaves room for it. -/
theorem Mirrored.nested {ahead bound : Nat} {first second : Parser α}
    (mirrored : Mirrored ahead bound first second) :
    Mirrored ahead bound (Parser.nested first) (Parser.nested second) := by
  intro settings cursor near
  by_cases full : settings.maxDepth ≤ cursor.depth
  · have ends : (Parser.nested first).run settings cursor =
        (.error ⟨.nestedTooDeeply settings.maxDepth, cursor.current.span.start⟩, cursor) := by
      rw [run_nested, if_pos full]
    refine .of_still (by rw [ends]) fun settings' start keep same => ?_
    rw [ends] at keep ⊢
    have limit := keep.limit _ rfl ⟨_, rfl⟩
    rw [run_nested, if_pos (by rw [limit, same.depth]; exact full), limit, same.current]
  · obtain ⟨course, leads, follows⟩ :=
      mirrored settings { cursor with depth := cursor.depth + 1 } near
    have runs : (Parser.nested first).run settings cursor =
        ((first.run settings { cursor with depth := cursor.depth + 1 }).1,
          { (first.run settings { cursor with depth := cursor.depth + 1 }).2 with
            depth := (first.run settings { cursor with depth := cursor.depth + 1 }).2.depth - 1 }) := by
      rw [run_nested, if_neg full]
    refine ⟨course, ?_, ?_⟩
    · rw [runs]
      exact ⟨leads.remaining, by rw [leads.depth]; rfl, leads.trace⟩
    · rw [runs]
      intro short settings' start stop keep depth leads' same
      have open' : ¬ settings'.maxDepth ≤ start.depth := by
        have := keep.deeper
        omega
      have inner := follows short settings' { start with depth := start.depth + 1 }
        { stop with depth := stop.depth + 1 } keep (congrArg Nat.succ depth)
        ⟨leads'.remaining, congrArg Nat.succ leads'.depth, leads'.trace⟩
        ⟨same.current, by rw [leads.depth, leads'.depth, depth], same.ends⟩
      rw [run_nested, if_neg open']
      dsimp only
      rw [inner]
      rfl

/-! ### Recursion -/

/--
A step of a recursion is guarded if it calls the recursive parser only after it
has read a token, so that one token less bounds what the call has to mirror.
-/
def Guarded (ahead bound : Nat) (step step' : (α → Parser β) → α → Parser β) : Prop :=
  ∀ near few again again', near < ahead → few ≤ bound →
    (∀ argument, Mirrored near few (again argument) (again' argument)) →
    ∀ argument, Mirrored (near + 1) (few + 1) (step again argument) (step' again' argument)

theorem Guarded.weaken {near ahead bound : Nat} {step step' : (α → Parser β) → α → Parser β}
    (guarded : Guarded ahead bound step step') (nearer : near ≤ ahead) :
    Guarded near bound step step' :=
  fun _ few again again' short fewer =>
    guarded _ few again again' (Nat.lt_of_lt_of_le short nearer) fewer

/-- A recursion that is left after a number of rounds, where another parser takes over. -/
def unrollTo (bottom : α → Parser β) (step : (α → Parser β) → α → Parser β) : Nat → α → Parser β
  | 0, argument => bottom argument
  | rounds + 1, argument => step (unrollTo bottom step rounds) argument

section Recursion

variable {step step' : (α → Parser β) → α → Parser β}

theorem unrollTo_succ (bottom : α → Parser β) (rounds : Nat) (argument : α) :
    unrollTo bottom step (rounds + 1) argument = step (unrollTo bottom step rounds) argument :=
  rfl

/-- Where rounds are missing, a recursion fails as if it had read past the end. -/
theorem unroll_eq_unrollTo (rounds : Nat) :
    unroll step rounds =
      unrollTo (fun _ => ⟨fun _ cursor => (.error cursor.pastEnd, cursor)⟩) step rounds := by
  induction rounds with
  | zero => rfl
  | succ rounds ih =>
      funext argument
      rw [unroll_succ, unrollTo_succ, ih]

/-- Any two numbers of rounds that cover the bounds do the same, whatever comes after them. -/
theorem Guarded.mirrored_unrollTo {ahead bound : Nat} {bottom bottom' : α → Parser β}
    (guarded : Guarded ahead bound step step') {rounds rounds' : Nat} (enough : ahead ≤ rounds)
    (enough' : bound ≤ rounds') (argument : α) :
    Mirrored ahead bound (unrollTo bottom step rounds argument)
      (unrollTo bottom' step' rounds' argument) := by
  induction ahead generalizing bound rounds rounds' argument with
  | zero => exact fun _ _ impossible => absurd impossible (Nat.not_lt_zero _)
  | succ ahead ih =>
      obtain ⟨rounds, rfl⟩ := Nat.exists_eq_add_of_le' enough
      rw [← Nat.add_assoc, unrollTo_succ]
      cases bound with
      | zero =>
          -- the first parser still has to keep its course, which any second one shows
          intro settings cursor near
          obtain ⟨course, leads, _⟩ := guarded ahead 0 (unrollTo bottom step (rounds + ahead))
            (unrollTo bottom' step' 0) (Nat.lt_succ_self _) (Nat.le_refl _)
            (ih (guarded.weaken (Nat.le_succ _)) (Nat.le_add_left _ _) (Nat.le_refl _))
            argument settings cursor near
          exact ⟨course, leads, fun impossible => absurd impossible (Nat.not_lt_zero _)⟩
      | succ bound =>
          obtain ⟨rounds', rfl⟩ := Nat.exists_eq_add_of_le' enough'
          rw [← Nat.add_assoc rounds', unrollTo_succ]
          refine guarded ahead bound _ _ (Nat.lt_succ_self _) (Nat.le_succ _) ?_ argument
          intro argument
          refine ih ?_ (Nat.le_add_left _ _) (Nat.le_add_left _ _) argument
          exact fun near few again again' short fewer =>
            guarded near few again again' (Nat.lt_succ_of_lt short) (Nat.le_succ_of_le fewer)

theorem Guarded.mirrored_unroll {ahead bound : Nat} (guarded : Guarded ahead bound step step')
    {rounds rounds' : Nat} (enough : ahead ≤ rounds) (enough' : bound ≤ rounds') (argument : α) :
    Mirrored ahead bound (unroll step rounds argument) (unroll step' rounds' argument) := by
  rw [unroll_eq_unrollTo, unroll_eq_unrollTo]
  exact guarded.mirrored_unrollTo enough enough' argument

/-- Enough rounds do the same as the recursion, which counts them by the tokens to come. -/
theorem Guarded.mirrored_unroll_recurse {ahead bound : Nat}
    (guarded : Guarded ahead bound step step') {rounds : Nat} (enough : ahead ≤ rounds)
    (argument : α) :
    Mirrored ahead bound (unroll step rounds argument) (recurse step' argument) := by
  intro settings cursor near
  obtain ⟨course, leads, _⟩ :=
    guarded.mirrored_unroll enough (Nat.le_refl bound) argument settings cursor near
  refine ⟨course, leads, ?_⟩
  intro short settings' start stop keep depth leads' same
  have fewer : Guarded ahead (min bound (start.unread.length + 1)) step step' :=
    fun near few again again' nearer fewer =>
      guarded near few again again' nearer (Nat.le_trans fewer (Nat.min_le_left _ _))
  obtain ⟨course', others, follows⟩ :=
    fewer.mirrored_unroll enough (Nat.min_le_right _ _) argument settings cursor near
  cases leads.unique others
  have room : course.tokens.length < start.unread.length + 1 := by
    rw [leads'.unread_length]
    omega
  exact follows (by omega) settings' start stop keep depth leads' same

theorem Guarded.mirrored_recurse {ahead bound : Nat} (guarded : Guarded ahead bound step step')
    (argument : α) : Mirrored ahead bound (recurse step argument) (recurse step' argument) :=
  fun settings cursor near =>
    (guarded.weaken near).mirrored_unroll_recurse (Nat.le_refl _) argument settings cursor
      (Nat.lt_succ_self _)

end Recursion

theorem MirroredAt.run_eq {bound : Nat} {first second : Parser α} {settings : Settings}
    {cursor : Cursor} (mirrored : MirroredAt bound first second settings cursor)
    (enough : cursor.unread.length < bound) :
    second.run settings cursor = first.run settings cursor := by
  obtain ⟨course, leads, follows⟩ := mirrored
  have short : course.tokens.length < bound := by
    have := leads.unread_length
    omega
  exact follows short settings cursor _ (.refl settings _) rfl leads (.refl _)

/--
A run depends on no token after the one that it stops at, and on the limit of
nesting only if it ends at it.
-/
theorem Mirrored.run_of_remaining {parser : Parser α}
    (mirrored : ∀ ahead bound, Mirrored ahead bound parser parser) {settings settings' : Settings}
    {start stop start' : Cursor} {result : Except Fault α} {read more : List Token}
    (ran : parser.run settings start = (result, stop)) (keep : settings.Keep settings' result)
    (depth : start'.depth = start.depth) (ahead : start.remaining = read ++ stop.remaining)
    (ahead' : start'.remaining = read ++ stop.current :: more)
    (ends : stop.current.kind ≠ .endOfInput → (more = [] ↔ stop.unread = [])) :
    ∃ trace, parser.run settings' start' =
      (result, ⟨stop.current, more, start'.depth, trace⟩) := by
  obtain ⟨course, leads, follows⟩ := mirrored (start.unread.length + 1) (read.length + 1)
    settings start (Nat.lt_succ_self _)
  rw [ran] at leads follows
  have same : course.tokens = read := List.append_cancel_right (leads.remaining.symm.trans ahead)
  refine ⟨course.events ++ start'.trace, follows (by rw [same]; exact Nat.lt_succ_self _) settings'
    start' _ keep depth ⟨?_, rfl, rfl⟩ ⟨rfl, depth.trans leads.depth.symm, ends⟩⟩
  rw [same]
  exact ahead'

/-- A guarded recursion is a fixed point of its step. -/
theorem recurse_eq {step : (α → Parser β) → α → Parser β}
    (guarded : ∀ ahead bound, Guarded ahead bound step step) (argument : α) :
    recurse step argument = step (recurse step) argument := by
  refine ext fun settings cursor => ?_
  have inner := (guarded cursor.unread.length (cursor.unread.length + 1)).mirrored_unroll_recurse
    (Nat.le_refl _)
  have outer := guarded (cursor.unread.length + 1) (cursor.unread.length + 1) cursor.unread.length
    (cursor.unread.length + 1) _ _ (Nat.lt_succ_self _) (Nat.le_refl _) inner argument
    settings cursor (Nat.lt_succ_self _)
  exact (outer.run_eq (by omega)).symm

end Parser

end ExprLang
