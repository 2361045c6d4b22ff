import Formwork.Proofs.Template.Acceptance
import Formwork.Proofs.Template.Cutting
import Formwork.Proofs.Template.Gaps

/-!
# Blanks inside mustaches

A mustache is read from what is inside it, without the blanks at the two ends. A gap that is left
has something on both sides of it (`Spaced`): there is none in an `else` or in the name of a block
that is closed, and one in an expression is between two tokens of it, so that other blanks there
make no difference. In the opening of a block the gap is behind the name and the space that ends it,
or it begins with that space (`opener_cases`), and then so must the blanks in its place: a name is
not ended by any other blank.

No blank is a brace, so a source with other blanks in a gap is cut at the same places
(`Cuts.change_gap`), and what the mustache does can be put in its place in the reading of the whole
source (`tags_replace`).
-/

namespace Formwork.Template

/-- The characters of a piece. -/
def Piece.source : Piece → List Char
  | .text cs => cs
  | .mustache content => "\x7b\x7b".toList ++ (content ++ "\x7d\x7d".toList)

/-- The source that is cut into these pieces. -/
def Piece.sourceOf (ps : List Piece) : List Char := ps.flatMap Piece.source

end Formwork.Template

namespace Formwork.Proofs

open Formwork Formwork.Template Formwork.Text

/-- What stands in front of a place between tokens: no literal is open at its end, unless it begins
a comment, where nothing is a token. -/
def BetweenTokens (front : List Char) : Prop :=
  (∃ tokens, Token.tokenize (String.ofList front) = .ok tokens)
    ∨ (front.dropWhile isBlank).head? = some '!'

/-- The front is the name of a block that is opened. -/
def NamesBlock (front : List Char) : Prop :=
  ∃ kind : BlockKind, front.dropWhile isBlank = '#' :: kind.name.toList

/-! ## Mustaches -/

section Mustaches

variable {content content' front run run' behind : List Char} {x : Char}

theorem Gap.ne_of_no_blank {cs : List Char} (hrun : Gap run) (h : ∀ c ∈ cs, isBlank c = false)
    (front behind : List Char) : front ++ (run ++ behind) ≠ cs := by
  rintro rfl
  obtain ⟨b, more, hb, -, rfl⟩ := hrun.exists_cons
  have hno := h b (by simp)
  rw [hb] at hno
  cases hno

theorem gap_space : Gap [' '] := ⟨List.cons_ne_nil _ _, by rw [Blanks]; decide⟩

theorem wordPart_of_opener : ∀ kind : BlockKind, ∀ c ∈ '#' :: kind.name.toList,
    Token.isWordPart c = true
  | .whenTrue => by decide
  | .unless => by decide
  | .each _ => (by decide : ∀ c ∈ '#' :: "each".toList, Token.isWordPart c = true)

theorem name_no_blank (kind : BlockKind) : ∀ c ∈ kind.name.toList, isBlank c = false := by
  intro c hc
  have hpart := wordPart_of_opener kind c (List.mem_cons_of_mem _ hc)
  exact (isWordPart_eq_true_iff.mp hpart).1

/-- A gap before the space behind a name is that space, and otherwise the gap is behind it. -/
theorem opener_cases {name tail : List Char} (hname : ∀ c ∈ name, isBlank c = false)
    (hrun : Gap run) (h : front ++ (run ++ behind) = name ++ ' ' :: tail) :
    (front = name ∧ ∃ more, run = ' ' :: more ∧ tail = more ++ behind) ∨
      ∃ middle, front = name ++ ' ' :: middle ∧ tail = middle ++ (run ++ behind) := by
  obtain ⟨b, more, hb, -, rfl⟩ := hrun.exists_cons
  rcases List.append_eq_append_iff.mp h with ⟨rest, rfl, htail⟩ | ⟨middle, rfl, htail⟩
  · cases rest with
    | nil =>
        obtain ⟨rfl, rfl⟩ := List.cons.inj htail
        exact .inl ⟨(List.append_nil _).symm, more, rfl, rfl⟩
    | cons c rest =>
        -- the gap would begin inside the name
        obtain ⟨rfl, -⟩ := List.cons.inj htail
        have hno := hname b (by simp)
        rw [hb] at hno
        cases hno
  · cases middle with
    | nil =>
        obtain ⟨rfl, rfl⟩ := List.cons.inj htail
        exact .inl ⟨List.append_nil _, more, rfl, rfl⟩
    | cons c middle =>
        obtain ⟨rfl, rfl⟩ := List.cons.inj htail
        exact .inr ⟨middle, rfl, rfl⟩

theorem trim_ne_nil_of_append (h : ¬ Blanks behind) (cs : List Char) : trim (cs ++ behind) ≠ [] :=
  fun hnil => h fun c hc => trim_eq_nil_iff.mp hnil c (List.mem_append_right _ hc)

end Mustaches

/-! ## Reading with another gap -/

/-- Inside a mustache, apart from the blanks at its ends, there is a gap with something on both
sides of it. -/
structure Spaced (content : List Char) (x : Char) (front run behind : List Char) : Prop where
  trimmed : trim content = x :: (front ++ (run ++ behind))
  gap : Gap run
  goesOn : ¬ Blanks behind

section Respaced

variable {r r' : Template.Reading} {tag? : Option Tag} {tokens : List Token}
variable {content content' front run run' behind : List Char} {x : Char}

theorem Spaced.trim_eq (h : Spaced content x front run behind) :
    trim content = trim (x :: front ++ (run ++ behind)) := by
  rw [List.cons_append, ← h.trimmed]
  exact (trimBy_trimBy (fun _ hc => hc) content).symm

theorem Comments.respaced (h : Spaced content x front run behind)
    (h' : Spaced content' x front run' behind) (hp : Comments (.mustache content)) :
    Comments (.mustache content') := by
  obtain ⟨_, tail, heq, hmark⟩ := hp
  cases heq
  obtain ⟨rfl, -⟩ := List.cons.inj (h.trimmed.symm.trans hmark)
  exact ⟨content', _, rfl, h'.trimmed⟩

/-- There is no gap in an `else`. -/
theorem Spaced.not_splits (h : Spaced content x front run behind) :
    ¬ Splits (.mustache content) := by
  rintro ⟨_, heq, helse⟩
  cases heq
  rw [h.trimmed, ← List.cons_append] at helse
  exact h.gap.ne_of_no_blank (by decide) _ _ helse

/-- A block is closed by its name alone. -/
theorem Closes.respaced {kind : BlockKind} (h : Spaced content x front run behind)
    (h' : Spaced content' x front run' behind) (hp : Closes kind.name (.mustache content)) :
    Closes kind.name (.mustache content') := by
  obtain ⟨_, tail, heq, hslash, hname⟩ := hp
  cases heq
  obtain ⟨rfl, rfl⟩ := List.cons.inj (h.trimmed.symm.trans hslash)
  by_cases hfront : Blanks front
  · refine ⟨content', _, rfl, h'.trimmed, ?_⟩
    rw [← trim_respaced (.inl hfront) h.gap h'.gap, hname]
  · have hname := congrArg String.toList hname
    rw [String.toList_ofList, trim_around hfront h.goesOn] at hname
    exact absurd hname (h.gap.ne_of_no_blank (name_no_blank kind) _ _)

/-- What is printed is the same expression. -/
theorem Shows.respaced {source : String} {e : Expr} (h : Spaced content x front run behind)
    (h' : Spaced content' x front run' behind) (hfront : HasTokens (x :: front) tokens)
    (hp : Shows source (.mustache content)) (he : Expr.read r.scopes source = .ok e) :
    ∃ source', Shows source' (.mustache content') ∧ Expr.read r.scopes source' = .ok e := by
  obtain ⟨_, heq, hhead, -, rfl⟩ := hp
  cases heq
  refine ⟨_, ⟨content', rfl, ?_, ?_, rfl⟩, ?_⟩
  · rw [h.trimmed] at hhead
    rw [h'.trimmed]
    exact hhead
  · exact fun helse => h'.not_splits ⟨content', rfl, helse⟩
  · rw [h.trim_eq] at he
    rw [h'.trim_eq]
    exact (read_respaced hfront h.gap h'.gap).mp he

/-- Behind the name of a block the next tokens begin. -/
theorem hasTokens_behind_name {kind : BlockKind} {middle : List Char}
    (h : HasTokens ('#' :: (kind.name.toList ++ ' ' :: middle)) tokens) :
    ∃ rest, HasTokens middle rest := by
  have hname : HasTokens ('#' :: kind.name.toList)
      [.word (String.ofList ('#' :: kind.name.toList))] := by
    refine hasTokens_of_tokenize (tokenize_word (wordPart_of_opener kind) (List.cons_ne_nil _ _) ?_)
    exact isNumber_of_head (by decide) (by decide) _
  obtain ⟨rest, hrest, -⟩ := (hname.append_iff gap_space).mp h
  exact ⟨rest, hrest⟩

/-- A block is opened for the same expression, as long as there is a space behind its name. -/
theorem OpensWith.respaced {kind : BlockKind} {source : String} {e : Expr}
    (h : Spaced content x front run behind) (h' : Spaced content' x front run' behind)
    (hfront : HasTokens (x :: front) tokens)
    (hspace : x :: front = '#' :: kind.name.toList → run.head? = some ' ' → run'.head? = some ' ')
    (hp : OpensWith kind.name source (.mustache content)) (he : Expr.read r.scopes source = .ok e) :
    ∃ source', OpensWith kind.name source' (.mustache content') ∧
      Expr.read r.scopes source' = .ok e := by
  obtain ⟨_, tail, heq, hmark, -, rfl⟩ := hp
  cases heq
  obtain ⟨rfl, hname⟩ := List.cons.inj (h.trimmed.symm.trans hmark)
  rcases opener_cases (name_no_blank kind) h.gap hname with ⟨rfl, more, rfl, rfl⟩ |
    ⟨middle, rfl, rfl⟩
  · obtain ⟨b, more', -, hmore', rfl⟩ := h'.gap.exists_cons
    obtain rfl : b = ' ' := Option.some.inj (hspace rfl rfl)
    refine ⟨_, ⟨content', more' ++ behind, rfl, h'.trimmed, ?_, rfl⟩, ?_⟩
    · exact trim_ne_nil_of_append h'.goesOn _
    · have hmore : Blanks more := h.gap.blanks.tail
      rw [trim_blanks_append hmore] at he
      rw [trim_blanks_append hmore']
      exact he
  · obtain ⟨rest, hmiddle⟩ := hasTokens_behind_name hfront
    refine ⟨_, ⟨content', middle ++ (run' ++ behind), rfl, ?_, ?_, rfl⟩, ?_⟩
    · rw [h'.trimmed, List.append_assoc, List.cons_append]
    · rw [← List.append_assoc]
      exact trim_ne_nil_of_append h'.goesOn _
    · exact (read_respaced hmiddle h.gap h'.gap).mp he

/-- What a mustache does with one gap, it does with another. -/
theorem Takes.respaced (h : Spaced content x front run behind)
    (h' : Spaced content' x front run' behind) (hfront : HasTokens (x :: front) tokens)
    (hspace : ∀ kind : BlockKind, x :: front = '#' :: kind.name.toList →
      run.head? = some ' ' → run'.head? = some ' ')
    (htakes : Takes r (.mustache content) tag? r') : Takes r (.mustache content') tag? r' := by
  cases htakes with
  | comment hp => exact .comment (hp.respaced h h')
  | output hp he =>
      obtain ⟨source', hp', he'⟩ := hp.respaced h h' hfront he
      exact .output hp' he'
  | choose negated hp he =>
      obtain ⟨source', hp', he'⟩ := hp.respaced h h' hfront (hspace _) he
      exact .choose negated hp' he'
  | each hp he =>
      have hp : OpensWith (BlockKind.each 0).name _ (.mustache content) := hp
      obtain ⟨source', hp', he'⟩ := hp.respaced h h' hfront (hspace _) he
      exact .each hp' he'
  | close hblocks hp => exact .close hblocks (hp.respaced h h')
  | split hblocks hp => exact absurd hp h.not_splits

/-- A mustache is read from what is inside it without the blanks at the ends. -/
theorem takes_of_trim (htrim : trim content = trim content')
    (h : Takes r (.mustache content) tag? r') : Takes r (.mustache content') tag? r' := by
  refine takes_of_step ?_
  have hstep := h.step
  rw [Template.Reading.step, htrim] at hstep
  exact hstep

/-- **A mustache does the same with other blanks in a gap**, as long as they do not take the place
of the space behind the name of a block. -/
theorem Takes.change_gap (hfront : BetweenTokens front) (hrun : Gap run) (hrun' : Gap run')
    (hspace : NamesBlock front → run.head? = some ' ' → run'.head? = some ' ')
    (h : Takes r (.mustache (front ++ (run ++ behind))) tag? r') :
    Takes r (.mustache (front ++ (run' ++ behind))) tag? r' := by
  by_cases hends : Blanks front ∨ Blanks behind
  · exact takes_of_trim (trim_respaced hends hrun hrun') h
  rw [not_or] at hends
  obtain ⟨x, rest, hhead⟩ : ∃ x rest, front.dropWhile isBlank = x :: rest :=
    List.exists_cons_of_ne_nil fun hnil => hends.1 (List.dropWhile_eq_nil_iff.mp hnil)
  have hspaced : ∀ {gap : List Char}, Gap gap →
      Spaced (front ++ (gap ++ behind)) x rest gap (dropTrailing isBlank behind) := by
    intro gap hgap
    refine ⟨?_, hgap, not_blanks_dropTrailing hends.2⟩
    rw [trim_around hends.1 hends.2, hhead, List.cons_append]
  rcases hfront with ⟨tokens, htokenize⟩ | hmark
  · have htokens : HasTokens (x :: rest) tokens := by
      rw [← hhead, hasTokens_dropWhile_iff]
      exact hasTokens_of_tokenize htokenize
    refine h.respaced (hspaced hrun) (hspaced hrun') htokens fun kind hname => ?_
    exact hspace ⟨kind, hhead.trans hname⟩
  · -- a comment, whatever follows
    obtain rfl : x = '!' := by
      rw [hhead] at hmark
      exact Option.some.inj hmark
    have hcomment : ∀ {gap : List Char}, Gap gap →
        r.step (.mustache (front ++ (gap ++ behind))) = .ok (none, r) := by
      intro gap hgap
      exact (Takes.comment ⟨_, _, rfl, (hspaced hgap).trimmed⟩).step
    have hstep := h.step
    rw [hcomment hrun, ← hcomment hrun'] at hstep
    exact takes_of_step hstep

/-- Only the opening of a block begins with a number sign. -/
theorem opens_of_takes {tail : List Char} (h : Takes r (.mustache content) tag? r')
    (hmark : trim content = '#' :: tail) :
    ∃ (kind : BlockKind) (source : String), OpensWith kind.name source (.mustache content) := by
  cases h with
  | comment hp =>
      obtain ⟨_, _, heq, htrim⟩ := hp
      cases heq
      cases hmark.symm.trans htrim
  | output hp he =>
      obtain ⟨_, heq, hhead, -⟩ := hp
      cases heq
      rw [hmark] at hhead
      exact absurd rfl (hhead '#' rfl).1
  | choose negated hp he => exact ⟨_, _, hp⟩
  | each hp he => exact ⟨.each 0, _, hp⟩
  | close hblocks hp =>
      obtain ⟨_, _, heq, htrim, -⟩ := hp
      cases heq
      cases hmark.symm.trans htrim
  | split hblocks hp =>
      obtain ⟨_, heq, htrim⟩ := hp
      cases heq
      cases hmark.symm.trans htrim

/-- **Without a space behind its name no block is opened.** -/
theorem not_takes_of_name (hrun : Gap run) (hname : NamesBlock front)
    (hspace : run.head? ≠ some ' ') : ¬ Takes r (.mustache (front ++ (run ++ behind))) tag? r' := by
  intro h
  obtain ⟨kind, hname⟩ := hname
  have hspace' : ∀ {name tail : List Char}, name ++ ' ' :: tail ≠ kind.name.toList :=
    gap_space.ne_of_no_blank (name_no_blank kind) _ _
  have hfront : ¬ Blanks front := by
    intro hblanks
    rw [List.dropWhile_eq_nil_iff.mpr hblanks] at hname
    cases hname
  by_cases hbehind : Blanks behind
  · have hopener : trim (front ++ (run ++ behind)) = '#' :: kind.name.toList := by
      rw [← List.append_assoc, trim_append_blanks hbehind, trim_append_blanks hrun.blanks,
        ← trim_dropWhile, hname]
      exact trim_eq_self fun c hc => (isWordPart_eq_true_iff.mp (wordPart_of_opener kind c hc)).1
    obtain ⟨kind', source, _, tail, heq, htrim, -⟩ := opens_of_takes h hopener
    cases heq
    exact hspace' (List.cons.inj (htrim.symm.trans hopener)).2
  · have hopener : trim (front ++ (run ++ behind)) =
        '#' :: (kind.name.toList ++ (run ++ dropTrailing isBlank behind)) := by
      rw [trim_around hfront hbehind, hname, List.cons_append]
    obtain ⟨kind', source, _, tail, heq, htrim, -⟩ := opens_of_takes h hopener
    cases heq
    have hcontent := (List.cons.inj (hopener.symm.trans htrim)).2
    rcases opener_cases (name_no_blank kind') hrun hcontent with ⟨-, more, rfl, -⟩ |
      ⟨middle, heq, -⟩
    · exact hspace rfl
    · exact hspace' heq.symm

end Respaced

/-! ## Sources -/

section Sources

variable {cs front run run' behind : List Char} {before after : List Piece} {p p' : Piece}
variable {r : Template.Reading} {tags : List Tag}

theorem sourceOf_of_cuts {ps : List Piece} (h : Cuts cs ps) : Piece.sourceOf ps = cs := by
  induction h with
  | text => exact List.append_nil _
  | @mustache cs before opened content after ps hopen hclose _ ih =>
      have hmore : Piece.sourceOf (.text before :: .mustache content :: ps) =
          before ++ (Piece.source (.mustache content) ++ Piece.sourceOf ps) := rfl
      rw [hmore, ih, Piece.source, hopen.found, hclose.found]
      simp only [List.append_assoc]

/-- What is found first does not depend on what is behind it. -/
theorem Leftmost.change_behind {needle behind' : List Char} (h : Leftmost needle cs front behind) :
    Leftmost needle (front ++ (needle ++ behind')) front behind' := by
  refine ⟨rfl, fun front' rest heq => ?_⟩
  by_contra hshort
  rw [Nat.not_le] at hshort
  -- it would be found within the front and itself
  have hother : front' ++ needle <+: front ++ (needle ++ behind') :=
    ⟨rest, by rw [heq, List.append_assoc]⟩
  have hitself : front ++ needle <+: front ++ (needle ++ behind') :=
    ⟨behind', List.append_assoc ..⟩
  have hlength : (front' ++ needle).length ≤ (front ++ needle).length := by
    simp only [List.length_append]
    omega
  obtain ⟨between, hbetween⟩ := List.prefix_of_prefix_length_le hother hitself hlength
  have hfound : cs = front' ++ (needle ++ (between ++ behind)) := by
    rw [h.found, ← List.append_assoc, ← hbetween]
    simp only [List.append_assoc]
  have hlong := h.first _ _ hfound
  omega

/-- A pair is found first where what comes before neither holds it nor ends with its half. -/
theorem leftmost_pair_iff {x : Char} {content rest : List Char} :
    Leftmost [x, x] (content ++ ([x, x] ++ rest)) content rest ↔
      ¬ [x, x] <:+: content ∧ content.getLast? ≠ some x := by
  constructor
  · intro h
    constructor
    · rintro ⟨start, middle, rfl⟩
      have hlong := h.first start (middle ++ ([x, x] ++ rest)) (by simp)
      simp only [List.length_append, List.length_cons] at hlong
      omega
    · intro hlast
      obtain ⟨start, rfl⟩ := List.getLast?_eq_some_iff.mp hlast
      have hlong := h.first start (x :: rest) (by simp)
      simp only [List.length_append, List.length_cons] at hlong
      omega
  · rintro ⟨hin, hlast⟩
    exact leftmost_of_breakAt? (breakAt?_pair hin hlast rest)

/-- A mustache is closed at the same place. -/
theorem Leftmost.change_gap {x : Char} {rest : List Char} (hx : isBlank x = false)
    (hrun' : Gap run')
    (h : Leftmost [x, x] (front ++ (run ++ behind) ++ ([x, x] ++ rest)) (front ++ (run ++ behind))
      rest) :
    Leftmost [x, x] (front ++ (run' ++ behind) ++ ([x, x] ++ rest)) (front ++ (run' ++ behind))
      rest := by
  rw [leftmost_pair_iff] at h ⊢
  obtain ⟨hin, hlast⟩ := h
  -- no blank is a half of the pair
  have hends : ∀ c ∈ run', c ≠ x := by
    rintro c hc rfl
    have hblank := hrun'.blanks c hc
    rw [hx] at hblank
    cases hblank
  have hpair : ∀ c ∈ [x, x].tail, c = x := by simp
  constructor
  · intro hpart
    rcases infix_append_cases hpart with hfront | hrest | ⟨-, -, d, hd, -, hhead⟩
    · exact hin (hfront.trans (List.prefix_append ..).isInfix)
    · rcases infix_append_cases hrest with hgap | hbehind | ⟨c, hc, -, -, hend, -⟩
      · exact hends x (hgap.subset (by simp)) rfl
      · have hsuffix : behind <:+ front ++ (run ++ behind) :=
          (List.suffix_append ..).trans (List.suffix_append ..)
        exact hin (hbehind.trans hsuffix.isInfix)
      · obtain rfl : c = x := by simpa using hc
        exact hends c (List.mem_of_mem_getLast? hend) rfl
    · obtain ⟨b, more, -, -, rfl⟩ := hrun'.exists_cons
      obtain rfl : b = d := Option.some.inj hhead
      exact hends b (List.mem_cons_self ..) (hpair b hd)
  · intro hend
    cases behind with
    | nil =>
        rw [List.append_nil, List.getLast?_append_of_ne_nil _ hrun'.nonempty] at hend
        exact hends x (List.mem_of_mem_getLast? hend) rfl
    | cons c behind =>
        have hne : c :: behind ≠ [] := List.cons_ne_nil _ _
        simp only [List.getLast?_append_of_ne_nil _ hne,
          List.getLast?_append_of_ne_nil _ (List.append_ne_nil_of_right_ne_nil _ hne)] at hlast hend
        exact hlast hend

/-- A text and a mustache are cut off again. -/
theorem Cuts.cons {text opened content : List Char} {ps : List Piece}
    (hopen : Leftmost "\x7b\x7b".toList cs text opened)
    (hclose : Leftmost "\x7d\x7d".toList
      (content ++ ("\x7d\x7d".toList ++ Piece.sourceOf ps)) content (Piece.sourceOf ps))
    (hrest : Cuts (Piece.sourceOf ps) ps) :
    Cuts (Piece.sourceOf (.text text :: .mustache content :: ps))
      (.text text :: .mustache content :: ps) := by
  have hsource : Piece.sourceOf (.text text :: .mustache content :: ps) =
      text ++ ("\x7b\x7b".toList ++ (content ++ ("\x7d\x7d".toList ++ Piece.sourceOf ps))) := by
    simp only [Piece.sourceOf, Piece.source, List.flatMap_cons, List.append_assoc]
  rw [hsource]
  exact .mustache hopen.change_behind hclose hrest

/-- **A source with other blanks in a gap is cut at the same places.** -/
theorem Cuts.change_gap (hrun' : Gap run')
    (h : Cuts cs (before ++ .mustache (front ++ (run ++ behind)) :: after)) :
    Cuts (Piece.sourceOf (before ++ .mustache (front ++ (run' ++ behind)) :: after))
      (before ++ .mustache (front ++ (run' ++ behind)) :: after) := by
  generalize hps : before ++ Piece.mustache (front ++ (run ++ behind)) :: after = ps at h
  induction h generalizing before with
  | text =>
      cases before with
      | nil => cases hps
      | cons p before =>
          have hnil := (List.cons.inj hps).2
          exact absurd hnil (List.append_ne_nil_of_right_ne_nil _ (List.cons_ne_nil _ _))
  | @mustache cs text opened content rest ps hopen hclose hrest ih =>
      have hopened := hclose.found
      match before with
      | [] => cases hps
      | [_] =>
          cases hps
          obtain rfl : Piece.sourceOf after = rest := sourceOf_of_cuts hrest
          subst hopened
          exact .cons hopen (hclose.change_gap (by decide) hrun') hrest
      | _ :: _ :: before =>
          cases hps
          exact .cons hopen (hopened ▸ hclose).change_behind (ih rfl)

/-! ## Reading a source -/

/-- What does the same can be put in the place of a piece. -/
theorem tags_replace (hp : ∀ {r tag? r'}, Takes r p tag? r' → Takes r p' tag? r')
    (h : r.tags (before ++ p :: after) = .ok tags) : r.tags (before ++ p' :: after) = .ok tags := by
  induction before generalizing r tags with
  | nil =>
      obtain ⟨tag?, r', more, htakes, hmore, rfl⟩ := tags_cons_eq_ok_iff.mp h
      exact tags_cons_eq_ok_iff.mpr ⟨tag?, r', more, hp htakes, hmore, rfl⟩
  | cons q before ih =>
      obtain ⟨tag?, r', more, htakes, hmore, rfl⟩ := tags_cons_eq_ok_iff.mp h
      exact tags_cons_eq_ok_iff.mpr ⟨tag?, r', more, htakes, ih hmore, rfl⟩

/-- Every piece is read at some point. -/
theorem exists_takes (h : r.tags (before ++ p :: after) = .ok tags) :
    ∃ r tag? r', Takes r p tag? r' := by
  induction before generalizing r tags with
  | nil =>
      obtain ⟨tag?, r', -, htakes, -⟩ := tags_cons_eq_ok_iff.mp h
      exact ⟨r, tag?, r', htakes⟩
  | cons q before ih =>
      obtain ⟨_, _, _, _, hmore, _⟩ := tags_cons_eq_ok_iff.mp h
      exact ih hmore

theorem printedForm_nil_eq_ok_iff {source printed : String} :
    printedForm [] source = .ok printed ↔
      ∃ tags, Template.Reading.start.tags (pieces source.toList) = .ok tags ∧
        Tag.printAll tags = printed := by
  have hsource : Rule.applyAll [] source = source := String.ofList_toList
  rw [printedForm, hsource, Tag.read, bind_eq_ok]
  simp only [Except.ok.injEq]

/-- What a source is translated to does not depend on the blanks in a gap. -/
theorem printedForm_change_gap {source source' printed : String} (hfront : BetweenTokens front)
    (hrun : Gap run) (hrun' : Gap run')
    (hspace : NamesBlock front → run.head? = some ' ' → run'.head? = some ' ')
    (hsource : pieces source.toList = before ++ .mustache (front ++ (run ++ behind)) :: after)
    (hsource' : pieces source'.toList = before ++ .mustache (front ++ (run' ++ behind)) :: after)
    (h : printedForm [] source = .ok printed) : printedForm [] source' = .ok printed := by
  obtain ⟨tags, htags, hprint⟩ := printedForm_nil_eq_ok_iff.mp h
  rw [hsource] at htags
  refine printedForm_nil_eq_ok_iff.mpr ⟨tags, ?_, hprint⟩
  rw [hsource']
  exact tags_replace (fun htakes => htakes.change_gap hfront hrun hrun' hspace) htags

end Sources

/--
**The blanks between two tokens of a mustache do not matter**, whichever they are and however many,
except directly behind the name of a block that is opened, where the first one must be a space.

The source is cut at the same places, and either is translated exactly if the other is, to the same.
Where anything but a space is behind the name of a block, a source is not translated.
-/
theorem translated_respaced {source source' : String} {before after : List Piece}
    {front run run' behind : List Char} (hfront : BetweenTokens front) (hrun : Gap run)
    (hrun' : Gap run')
    (hsource : pieces source.toList = before ++ .mustache (front ++ (run ++ behind)) :: after)
    (hsource' : source'.toList =
      Piece.sourceOf (before ++ .mustache (front ++ (run' ++ behind)) :: after)) :
    pieces source'.toList = before ++ .mustache (front ++ (run' ++ behind)) :: after
      ∧ ((NamesBlock front → (run.head? = some ' ' ↔ run'.head? = some ' ')) →
        (printedForm [] source).toOption = (printedForm [] source').toOption)
      ∧ (NamesBlock front → run.head? ≠ some ' ' →
        ∃ error, printedForm [] source = .error error) := by
  have hcuts := cuts_pieces source.toList
  rw [hsource] at hcuts
  have hpieces' : pieces source'.toList =
      before ++ .mustache (front ++ (run' ++ behind)) :: after := by
    rw [hsource']
    exact (cuts_pieces _).unique (hcuts.change_gap hrun')
  refine ⟨hpieces', fun hspace => ?_, fun hname hspace => ?_⟩
  · refine Option.ext fun printed => ?_
    rw [toOption_eq_some_iff, toOption_eq_some_iff]
    constructor
    · have hmp := fun hname => (hspace hname).mp
      exact printedForm_change_gap hfront hrun hrun' hmp hsource hpieces'
    · have hmpr := fun hname => (hspace hname).mpr
      exact printedForm_change_gap hfront hrun' hrun hmpr hpieces' hsource
  · cases h : printedForm [] source with
    | error error => exact ⟨error, rfl⟩
    | ok printed =>
        obtain ⟨tags, htags, -⟩ := printedForm_nil_eq_ok_iff.mp h
        rw [hsource] at htags
        obtain ⟨r, tag?, r', htakes⟩ := exists_takes htags
        exact absurd htakes (not_takes_of_name hrun hname hspace)

/-- A comparison may go on in another line, but not begin there. -/
theorem translated_respaced_comparison :
    (printedForm [] "\x7b\x7b#if eq x 1\x7d\x7da\x7b\x7b/if\x7d\x7d").toOption =
        (printedForm [] "\x7b\x7b#if eq\n\tx 1\x7d\x7da\x7b\x7b/if\x7d\x7d").toOption
      ∧ ∃ error, printedForm [] "\x7b\x7b#if\nx\x7d\x7da\x7b\x7b/if\x7d\x7d" = .error error := by
  have hlines : Gap "\n\t".toList := ⟨by decide, by rw [Blanks]; decide⟩
  have hline : Gap "\n".toList := ⟨by decide, by rw [Blanks]; decide⟩
  constructor
  · have hfront : Token.tokenize (String.ofList "#if eq".toList) =
        .ok [.word "#if", .word "eq"] := toOption_eq_some_iff.mp (by decide)
    have hpieces : pieces "\x7b\x7b#if eq x 1\x7d\x7da\x7b\x7b/if\x7d\x7d".toList =
        [.text []] ++ .mustache ("#if eq".toList ++ (" ".toList ++ "x 1".toList)) ::
          [.text ['a'], .mustache "/if".toList, .text []] := by decide
    have hother : "\x7b\x7b#if eq\n\tx 1\x7d\x7da\x7b\x7b/if\x7d\x7d".toList =
        Piece.sourceOf ([.text []] ++
          .mustache ("#if eq".toList ++ ("\n\t".toList ++ "x 1".toList)) ::
            [.text ['a'], .mustache "/if".toList, .text []]) := by decide
    obtain ⟨-, hsame, -⟩ := translated_respaced (.inl ⟨_, hfront⟩) gap_space hlines hpieces hother
    refine hsame ?_
    rintro ⟨kind, hname⟩
    have hword : Token.isWordPart ' ' = true :=
      wordPart_of_opener kind ' ' (by rw [← hname]; decide)
    exact absurd hword (by decide)
  · have hfront : Token.tokenize (String.ofList "#if".toList) = .ok [.word "#if"] :=
      toOption_eq_some_iff.mp (by decide)
    have hpieces : pieces "\x7b\x7b#if\nx\x7d\x7da\x7b\x7b/if\x7d\x7d".toList =
        [.text []] ++ .mustache ("#if".toList ++ ("\n".toList ++ "x".toList)) ::
          [.text ['a'], .mustache "/if".toList, .text []] := by decide
    obtain ⟨-, -, hfails⟩ :=
      translated_respaced (.inl ⟨_, hfront⟩) hline gap_space hpieces String.toList_ofList
    exact hfails ⟨.whenTrue, rfl⟩ (by decide)

/-- A block whose name is followed by a line break instead of a space is not translated any more. -/
theorem broken_opener_untranslated :
    (∃ tokens, Token.tokenize "#if x" = .ok tokens ∧ Token.tokenize "#if\nx" = .ok tokens)
      ∧ printedForm [] "\x7b\x7b#if x\x7d\x7da\x7b\x7b/if\x7d\x7d" =
        .ok "\x7b% if hb_truthy(_ctx[\"x\"]) %\x7da\x7b% endif %\x7d"
      ∧ printedForm [] "\x7b\x7b#if\nx\x7d\x7da\x7b\x7b/if\x7d\x7d" =
        .error (.unknownBlock "if\nx") := by
  refine ⟨⟨[.word "#if", .word "x"], ?_, ?_⟩, ?_, rfl⟩
  · exact toOption_eq_some_iff.mp (by decide)
  · exact toOption_eq_some_iff.mp (by decide)
  · exact toOption_eq_some_iff.mp (by decide +kernel)

end Formwork.Proofs
