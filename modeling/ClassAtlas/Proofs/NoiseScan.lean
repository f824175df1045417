import ClassAtlas.Source.Noise
import Mathlib.Data.List.TakeWhile

/-!
# The scan for comments and literals

A source text is cut from the left into tokens of noise and characters that are kept. This file says
what a token is and what such a cut is without running the scan: a character is kept only where no
token starts. It proves that every text has exactly one cut, and that the text without noise
consists of the characters that the cut keeps.
-/

namespace ClassAtlas.Source

/-! ## Tokens -/

/-- The quotes around a literal. -/
inductive Quote
  | single
  | double
  deriving DecidableEq, Repr

/-- The character of a quote. -/
def Quote.char : Quote → Char
  | single => '\x27'
  | double => '"'

/-- The kinds of noise. -/
inductive NoiseKind
  | lineComment
  | blockComment
  | literal (quote : Quote)
  deriving DecidableEq, Repr

namespace NoiseKind

/-- How a token of this kind starts. -/
@[simp] def opening : NoiseKind → List Char
  | lineComment => ['/', '/']
  | blockComment => ['/', '*']
  | literal quote => [quote.char]

/-- How a token of this kind ends. -/
@[simp] def closing : NoiseKind → List Char
  | lineComment => []
  | blockComment => ['*', '/']
  | literal quote => [quote.char]

end NoiseKind

/-- What stands between the quotes of a literal: pairs of a backslash and any character, and other
characters that are neither the quote nor a backslash nor a line feed. -/
inductive LiteralBody (quote : Char) : List Char → Prop
  | nil : LiteralBody quote []
  | escaped (c : Char) {rest : List Char} :
    LiteralBody quote rest → LiteralBody quote ('\\' :: c :: rest)
  | plain {c : Char} {rest : List Char} (hquote : c ≠ quote) (hbackslash : c ≠ '\\')
    (hnewline : c ≠ '\n') :
      LiteralBody quote rest → LiteralBody quote (c :: rest)

/-- What stands between the opening and the closing of a token. The first end mark after the start
of a block comment is its own. -/
def NoiseKind.Admits : NoiseKind → List Char → Prop
  | lineComment, body => '\n' ∉ body
  | blockComment, body => ∀ front back, body ++ ['*', '/'] = front ++ '*' :: '/' :: back → back = []
  | literal quote, body => LiteralBody quote.char body

/-- A comment or a literal. -/
structure NoiseToken where
  kind : NoiseKind
  body : List Char
  admitted : kind.Admits body

namespace NoiseToken

/-- The text of a token. -/
def text (token : NoiseToken) : List Char :=
  token.kind.opening ++ token.body ++ token.kind.closing

/-- The token can end before the given text: a line comment ends before a line feed or at the end of
the whole text, all others have an end of their own. -/
def EndsBefore (token : NoiseToken) (rest : List Char) : Prop :=
  token.kind = .lineComment → ∀ c ∈ rest.head?, c = '\n'

end NoiseToken

/-! ## Where tokens end -/

/-- The empty block comment has its own end mark only. -/
theorem admits_blockComment_nil : NoiseKind.blockComment.Admits [] := by
  intro front back heq
  have hlength := congrArg List.length heq
  simp only [List.nil_append, List.length_cons, List.length_append, List.length_nil] at hlength
  exact List.length_eq_zero_iff.mp (by omega)

/-- A character can be put in front of the body of a block comment unless this makes an end mark. -/
theorem admits_blockComment_cons {c : Char} {body : List Char} :
    NoiseKind.blockComment.Admits (c :: body) ↔
      NoiseKind.blockComment.Admits body ∧ ¬ (c = '*' ∧ body.head? = some '/') := by
  constructor
  · intro h
    refine ⟨fun front back heq => h (c :: front) back (by rw [List.cons_append, heq]; rfl), ?_⟩
    rintro ⟨rfl, hhead⟩
    obtain ⟨tail, rfl⟩ := List.head?_eq_some_iff.mp hhead
    cases tail <;> cases h [] _ rfl
  · rintro ⟨hbody, hfirst⟩ front back heq
    cases front with
    | cons d front => exact hbody front back (List.cons.inj heq).2
    | nil =>
      obtain ⟨rfl, hrest⟩ := List.cons.inj heq
      cases body with
      | nil => cases (List.cons.inj hrest).1
      | cons d tail =>
        obtain ⟨rfl, _⟩ := List.cons.inj hrest
        exact absurd ⟨rfl, rfl⟩ hfirst

/-- The end of a block comment is found where its first end mark is. -/
theorem afterBlockEnd?_eq_some_iff {text rest : List Char} :
    afterBlockEnd? text = some rest ↔
      ∃ body, NoiseKind.blockComment.Admits body ∧ text = body ++ '*' :: '/' :: rest := by
  fun_induction afterBlockEnd? text with
  | case1 after =>
    constructor
    · intro heq
      cases heq
      exact ⟨[], admits_blockComment_nil, rfl⟩
    · rintro ⟨body, hbody, heq⟩
      cases body with
      | nil => simpa using heq
      | cons c body =>
        obtain ⟨rfl, htail⟩ := List.cons.inj heq
        cases body with
        | nil => cases (List.cons.inj htail).1
        | cons d body =>
          obtain ⟨rfl, _⟩ := List.cons.inj htail
          exact absurd ⟨rfl, rfl⟩ (admits_blockComment_cons.mp hbody).2
  | case2 c text hnot ih =>
    rw [ih]
    constructor
    · rintro ⟨body, hbody, rfl⟩
      refine ⟨c :: body, admits_blockComment_cons.mpr ⟨hbody, ?_⟩, rfl⟩
      rintro ⟨rfl, hhead⟩
      obtain ⟨tail, rfl⟩ := List.head?_eq_some_iff.mp hhead
      exact hnot _ rfl rfl
    · rintro ⟨body, hbody, heq⟩
      cases body with
      | nil =>
        obtain ⟨rfl, rfl⟩ := List.cons.inj heq
        exact absurd rfl (hnot _ rfl)
      | cons d body => exact ⟨body, (admits_blockComment_cons.mp hbody).1, (List.cons.inj heq).2⟩
  | case3 => simp

/-- Neither quote is the character that escapes it. -/
theorem Quote.char_ne_backslash (quote : Quote) : quote.char ≠ '\\' := by
  cases quote <;> decide

/-- A literal is read up to the quote that follows its body. -/
theorem LiteralBody.afterLiteral? {quote : Quote} {body : List Char}
    (hbody : LiteralBody quote.char body) (rest : List Char) :
    Source.afterLiteral? quote.char (body ++ quote.char :: rest) = some rest := by
  induction hbody with
  | nil =>
    rw [List.nil_append, Source.afterLiteral?.eq_def]
    simp [quote.char_ne_backslash]
  | escaped c _ ih =>
    rw [List.cons_append, Source.afterLiteral?.eq_def]
    simpa using ih
  | plain hquote hbackslash hnewline _ ih =>
    rw [List.cons_append, Source.afterLiteral?.eq_def]
    simpa [hquote, hbackslash, hnewline] using ih

/-- The end of a literal is found where its closing quote is. -/
theorem afterLiteral?_eq_some_iff (quote : Quote) {text rest : List Char} :
    afterLiteral? quote.char text = some rest ↔
      ∃ body, LiteralBody quote.char body ∧ text = body ++ quote.char :: rest := by
  constructor
  · intro hend
    fun_induction afterLiteral? quote.char text with
    | case1 => cases hend
    | case2 => cases hend
    | case3 c text ih =>
      obtain ⟨body, hbody, rfl⟩ := ih hend
      exact ⟨_, .escaped c hbody, rfl⟩
    | case4 => cases hend; exact ⟨[], .nil, rfl⟩
    | case5 => cases hend
    | case6 c text hbackslash hquote hnewline ih =>
      obtain ⟨body, hbody, rfl⟩ := ih hend
      exact ⟨_, .plain hquote hbackslash hnewline hbody, rfl⟩
  · rintro ⟨body, hbody, rfl⟩
    exact hbody.afterLiteral? rest

/-- A line comment reaches up to the next line feed. -/
theorem dropWhile_eq_iff {text rest : List Char} :
    text.dropWhile (· ≠ '\n') = rest ↔
      ∃ body, '\n' ∉ body ∧ text = body ++ rest ∧ ∀ c ∈ rest.head?, c = '\n' := by
  constructor
  · rintro rfl
    refine ⟨text.takeWhile (· ≠ '\n'), fun hmem => ?_, List.takeWhile_append_dropWhile.symm,
      fun c hc => ?_⟩
    · simpa using List.mem_takeWhile_imp hmem
    · have hstop := List.head?_dropWhile_not (fun c : Char => decide (c ≠ '\n')) text
      rw [Option.mem_def.mp hc] at hstop
      simpa using hstop
  · rintro ⟨body, hbody, rfl, hrest⟩
    have hline : ∀ c ∈ body, decide (c ≠ '\n') = true := by
      intro c hc
      simpa using fun heq : c = '\n' => hbody (heq ▸ hc)
    rw [List.dropWhile_append_of_pos hline]
    cases rest with
    | nil => rfl
    | cons c rest => simp [hrest c rfl]

/-- **A token is found where the text starts with one**, and it is read to its end. -/
theorem afterNoise?_eq_some_iff {text rest : List Char} :
    afterNoise? text = some rest ↔
      ∃ token : NoiseToken, text = token.text ++ rest ∧ token.EndsBefore rest := by
  constructor
  · intro hend
    unfold afterNoise? at hend
    split at hend
    · obtain ⟨body, hbody, rfl, hrest⟩ := dropWhile_eq_iff.mp (Option.some.inj hend)
      exact ⟨⟨.lineComment, body, hbody⟩, by simp [NoiseToken.text], fun _ => hrest⟩
    · obtain ⟨body, hbody, rfl⟩ := afterBlockEnd?_eq_some_iff.mp hend
      exact ⟨⟨.blockComment, body, hbody⟩, by simp [NoiseToken.text], fun hline => by cases hline⟩
    · obtain ⟨body, hbody, rfl⟩ := (afterLiteral?_eq_some_iff .double).mp hend
      exact ⟨⟨.literal .double, body, hbody⟩, by simp [NoiseToken.text, Quote.char],
        fun hline => by cases hline⟩
    · obtain ⟨body, hbody, rfl⟩ := (afterLiteral?_eq_some_iff .single).mp hend
      exact ⟨⟨.literal .single, body, hbody⟩, by simp [NoiseToken.text, Quote.char],
        fun hline => by cases hline⟩
    · cases hend
  · rintro ⟨⟨kind, body, hbody⟩, rfl, hrest⟩
    rw [NoiseToken.text, List.append_assoc, List.append_assoc]
    cases kind with
    | lineComment => exact congrArg some (dropWhile_eq_iff.mpr ⟨body, hbody, rfl, hrest rfl⟩)
    | blockComment => exact afterBlockEnd?_eq_some_iff.mpr ⟨body, hbody, rfl⟩
    | literal quote =>
      have hend := LiteralBody.afterLiteral? hbody rest
      cases quote <;> exact hend

/-- No token is found where the text starts with none. -/
theorem afterNoise?_eq_none_iff {text : List Char} :
    afterNoise? text = none ↔
      ∀ (token : NoiseToken) (rest : List Char), token.EndsBefore rest →
        text ≠ token.text ++ rest := by
  rw [Option.eq_none_iff_forall_ne_some]
  constructor
  · intro hnone token rest hend heq
    exact hnone rest (afterNoise?_eq_some_iff.mpr ⟨token, heq, hend⟩)
  · intro hnone rest hsome
    obtain ⟨token, heq, hend⟩ := afterNoise?_eq_some_iff.mp hsome
    exact hnone token rest hend heq

/-- The kind of a token is known from how it starts. -/
theorem NoiseKind.eq_of_opening_append_eq {kind other : NoiseKind} {rest after : List Char}
    (h : kind.opening ++ rest = other.opening ++ after) : kind = other := by
  rcases kind with _ | _ | (_ | _) <;> rcases other with _ | _
    | (_ | _) <;> simp [Quote.char] at h ⊢

namespace NoiseToken

/-- A token has a first character. -/
theorem exists_text_eq_cons (token : NoiseToken) : ∃ c tail, token.text = c :: tail := by
  obtain ⟨kind, body, _⟩ := token
  cases kind <;> exact ⟨_, _, rfl⟩

/-- A text that starts with a token is not empty. -/
theorem text_append_ne_nil (token : NoiseToken) (rest : List Char) : token.text ++ rest ≠ [] := by
  obtain ⟨c, tail, htext⟩ := token.exists_text_eq_cons
  simp [htext]

/-- A token is known from its text. -/
theorem eq_of_text_eq {token other : NoiseToken} (h : token.text = other.text) : token = other := by
  obtain ⟨kind, body, hbody⟩ := token
  obtain ⟨kind', body', hbody'⟩ := other
  rw [text, text, List.append_assoc, List.append_assoc] at h
  obtain rfl : kind = kind' := NoiseKind.eq_of_opening_append_eq h
  obtain rfl : body = body' := List.append_cancel_right (List.append_cancel_left h)
  rfl

/-- A text starts with one token at most. -/
theorem eq_of_append_eq {token other : NoiseToken} {rest after : List Char}
    (hend : token.EndsBefore rest) (hend' : other.EndsBefore after)
    (h : token.text ++ rest = other.text ++ after) :
    token = other ∧ rest = after := by
  have hrest := afterNoise?_eq_some_iff.mpr ⟨token, rfl, hend⟩
  rw [h, afterNoise?_eq_some_iff.mpr ⟨other, rfl, hend'⟩, Option.some.injEq] at hrest
  subst hrest
  exact ⟨eq_of_text_eq (List.append_cancel_right h), rfl⟩

end NoiseToken

/-! ## The text without noise -/

/-- Characters that belong to noise are passed over. -/
theorem withoutNoiseFrom_length (noise rest : List Char) :
    withoutNoiseFrom noise.length (noise ++ rest) = withoutNoise rest := by
  induction noise with
  | nil => rfl
  | cons c noise ih => exact ih

/-- A character where no token starts is kept. -/
theorem withoutNoise_cons {c : Char} {rest : List Char} (h : afterNoise? (c :: rest) = none) :
    withoutNoise (c :: rest) = c :: withoutNoise rest := by
  rw [withoutNoise, withoutNoiseFrom, h]
  rfl

/-- A token is taken out. -/
theorem withoutNoise_append {token : NoiseToken} {rest : List Char} (hend : token.EndsBefore rest) :
    withoutNoise (token.text ++ rest) = withoutNoise rest := by
  have hfound := afterNoise?_eq_some_iff.mpr ⟨token, rfl, hend⟩
  obtain ⟨c, tail, htext⟩ := token.exists_text_eq_cons
  rw [htext, List.cons_append] at hfound ⊢
  rw [withoutNoise, withoutNoiseFrom, hfound]
  simp only [List.length_append, Nat.add_sub_cancel]
  exact withoutNoiseFrom_length tail rest

/-! ## Cuts -/

/-- What a text is cut into. -/
inductive Piece
  /-- A character that is kept. -/
  | code (c : Char)
  /-- A token that is taken out. -/
  | noise (token : NoiseToken)

namespace Piece

/-- The text of a piece. -/
def text : Piece → List Char
  | code c => [c]
  | noise token => token.text

/-- The character of a piece that is kept. -/
def code? : Piece → Option Char
  | code c => some c
  | noise _ => none

end Piece

/-- The pieces are what comes of the text when it is cut from the left. A character is kept only
where no token starts. -/
inductive Scan : List Char → List Piece → Prop
  | nil : Scan [] []
  | code {c : Char} {rest : List Char} {pieces : List Piece}
      (hcode : ∀ (token : NoiseToken) (after : List Char), token.EndsBefore after →
        c :: rest ≠ token.text ++ after)
      (hrest : Scan rest pieces) : Scan (c :: rest) (.code c :: pieces)
  | noise {token : NoiseToken} {rest : List Char} {pieces : List Piece}
    (hend : token.EndsBefore rest)
      (hrest : Scan rest pieces) : Scan (token.text ++ rest) (.noise token :: pieces)

/-- The pieces make up the text. -/
theorem Scan.flatMap_text {text : List Char} {pieces : List Piece} (h : Scan text pieces) :
    pieces.flatMap Piece.text = text := by
  induction h with
  | nil => rfl
  | code _ _ ih => rw [List.flatMap_cons, ih]; rfl
  | noise _ _ ih => rw [List.flatMap_cons, ih]; rfl

/-- **The text without noise is what a cut keeps.** -/
theorem Scan.withoutNoise_eq {text : List Char} {pieces : List Piece} (h : Scan text pieces) :
    withoutNoise text = pieces.filterMap Piece.code? := by
  induction h with
  | nil => rfl
  | code hcode _ ih => rw [withoutNoise_cons (afterNoise?_eq_none_iff.mpr hcode), ih]; rfl
  | noise hend _ ih => rw [withoutNoise_append hend, ih]; rfl

/-- Every text can be cut. -/
theorem exists_scan (text : List Char) : ∃ pieces, Scan text pieces := by
  induction hlength : text.length using Nat.strong_induction_on generalizing text with
  | _ length ih =>
    subst hlength
    cases hnoise : afterNoise? text with
    | some rest =>
      obtain ⟨token, rfl, hend⟩ := afterNoise?_eq_some_iff.mp hnoise
      obtain ⟨c, tail, htext⟩ := token.exists_text_eq_cons
      have hshorter : rest.length < (token.text ++ rest).length := by
        rw [htext, List.length_append, List.length_cons]
        omega
      obtain ⟨pieces, hpieces⟩ := ih _ hshorter rest rfl
      exact ⟨_, .noise hend hpieces⟩
    | none =>
      cases text with
      | nil => exact ⟨[], .nil⟩
      | cons c rest =>
        obtain ⟨pieces, hpieces⟩ := ih _ (Nat.lt_succ_self _) rest rfl
        exact ⟨_, .code (afterNoise?_eq_none_iff.mp hnoise) hpieces⟩

/-- A text can be cut in one way only. -/
theorem Scan.unique {text : List Char} {pieces others : List Piece} (h : Scan text pieces)
    (hother : Scan text others) : pieces = others := by
  induction h generalizing others with
  | nil =>
    generalize htext : ([] : List Char) = text at hother
    cases hother with
    | nil => rfl
    | code => cases htext
    | @noise token rest => exact absurd htext.symm (token.text_append_ne_nil rest)
  | @code c rest pieces hcode _ ih =>
    generalize htext : c :: rest = text at hother
    cases hother with
    | nil => cases htext
    | code _ hrest =>
      cases htext
      rw [ih hrest]
    | noise hend => exact absurd htext (hcode _ _ hend)
  | @noise token rest pieces hend _ ih =>
    generalize htext : token.text ++ rest = text at hother
    cases hother with
    | nil => exact absurd htext (token.text_append_ne_nil rest)
    | code hcode => exact absurd htext.symm (hcode _ _ hend)
    | noise hend' hrest =>
      obtain ⟨rfl, rfl⟩ := NoiseToken.eq_of_append_eq hend hend' htext
      rw [ih hrest]

end ClassAtlas.Source
