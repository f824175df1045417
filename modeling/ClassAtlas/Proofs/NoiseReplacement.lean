import ClassAtlas.Entity
import ClassAtlas.Proofs.NoiseScan
import Mathlib.Data.List.Forall2
import Mathlib.Data.List.Infix

/-!
# Noise makes no difference

What a comment or a literal says has no influence on what is found in a source. Its tokens of noise
may be replaced by others of the same class: the new text is cut at the same places, so the same
characters are kept. The source must not have an opener without an end, since a new token could
bring the end that was missing.
-/

namespace ClassAtlas

namespace Source

/-! ## Replaced tokens -/

/-- The two kinds belong to one class. Literals are one class, whatever their quotes. -/
inductive NoiseKind.SameClass : NoiseKind → NoiseKind → Prop
  | lineComment : SameClass .lineComment .lineComment
  | blockComment : SameClass .blockComment .blockComment
  | literal (quote quote' : Quote) : SameClass (.literal quote) (.literal quote')

/-- Line comments are in a class of their own. -/
theorem NoiseKind.SameClass.eq_lineComment {kind : NoiseKind} (h : kind.SameClass .lineComment) :
    kind = .lineComment := by
  cases h
  rfl

/-- The second piece can stand in place of the first. -/
inductive Piece.Alike : Piece → Piece → Prop
  | code (c : Char) : Alike (.code c) (.code c)
  | noise {token other : NoiseToken} (hclass : token.kind.SameClass other.kind) :
      Alike (.noise token) (.noise other)

/-- No opener without an end is kept: no quote, and no start of a block comment. -/
structure NoOpenerLeft (pieces : List Piece) : Prop where
  no_quote : ∀ quote : Quote, .code quote.char ∉ pieces
  no_blockComment : ¬ [.code '/', .code '*'] <:+: pieces

/-- What holds of all pieces holds of those after the first. -/
theorem NoOpenerLeft.tail {piece : Piece} {pieces : List Piece}
    (h : NoOpenerLeft (piece :: pieces)) :
    NoOpenerLeft pieces where
  no_quote quote hmem := h.no_quote quote (List.mem_cons_of_mem piece hmem)
  no_blockComment hinfix := h.no_blockComment (List.infix_cons hinfix)

/-- Pieces that can stand in place of others keep the same characters. -/
theorem filterMap_code?_of_alike {pieces others : List Piece}
    (h : List.Forall₂ Piece.Alike pieces others) :
    others.filterMap Piece.code? = pieces.filterMap Piece.code? := by
  induction h with
  | nil => rfl
  | cons hpiece _ ih =>
    cases hpiece with
    | code c => simp [Piece.code?, ih]
    | noise => exact ih

/-! ## First characters -/

/-- The character that a piece starts with. -/
def Piece.first : Piece → Char
  | code c => c
  | noise token =>
    match token.kind with
    | .lineComment => '/'
    | .blockComment => '/'
    | .literal quote => quote.char

/-- The text of pieces starts as the first of them does. -/
theorem head?_flatMap_text (pieces : List Piece) :
    (pieces.flatMap Piece.text).head? = pieces.head?.map Piece.first := by
  cases pieces with
  | nil => rfl
  | cons piece pieces =>
    rw [List.flatMap_cons]
    cases piece with
    | code c => rfl
    | noise token =>
      obtain ⟨kind, body, _⟩ := token
      cases kind <;> rfl

/-- A piece that can stand in place of another starts with the same character, or both start with a
quote. -/
theorem Piece.Alike.first_eq {piece other : Piece} (h : piece.Alike other) :
    other.first = piece.first ∨ ∃ quote quote' :
      Quote, piece.first = quote.char ∧ other.first = quote'.char := by
  cases h with
  | code c => exact .inl rfl
  | @noise token other hclass =>
    obtain ⟨kind, _, _⟩ := token
    obtain ⟨kind', _, _⟩ := other
    cases hclass with
    | lineComment => exact .inl rfl
    | blockComment => exact .inl rfl
    | literal quote quote' => exact .inr ⟨quote, quote', rfl, rfl⟩

/-- After a replacement a text starts with the same character, or it starts with a quote as it did
before. -/
theorem head?_of_alike {pieces others : List Piece} (h : List.Forall₂ Piece.Alike pieces others) :
    (others.flatMap Piece.text).head? = (pieces.flatMap Piece.text).head? ∨
      ∃ quote quote' : Quote, (pieces.flatMap Piece.text).head? = some quote.char ∧
        (others.flatMap Piece.text).head? = some quote'.char := by
  rw [head?_flatMap_text, head?_flatMap_text]
  cases h with
  | nil => exact .inl rfl
  | cons hpiece _ =>
    rcases hpiece.first_eq with hfirst | ⟨quote, quote', hfirst, hfirst'⟩
    · exact .inl (congrArg some hfirst)
    · exact .inr ⟨quote, quote', congrArg some hfirst, congrArg some hfirst'⟩

/-- A character that is no quote starts the text after a replacement only if it started the text
before. -/
theorem head?_eq_some_of_alike {pieces others : List Piece}
    (h : List.Forall₂ Piece.Alike pieces others) {c : Char}
    (hquote : ∀ quote : Quote, c ≠ quote.char)
    (hhead : (others.flatMap Piece.text).head? = some c) :
    (pieces.flatMap Piece.text).head? = some c := by
  rcases head?_of_alike h with heq | ⟨_, quote, _, hquote'⟩
  · rw [← heq, hhead]
  · rw [hquote'] at hhead
    exact absurd (Option.some.inj hhead).symm (hquote quote)

/-- A line comment that ends before a text can be replaced together with the text. -/
theorem NoiseToken.EndsBefore.replace {token other : NoiseToken} {pieces others : List Piece}
    (hend : token.EndsBefore (pieces.flatMap Piece.text)) (hclass : token.kind.SameClass other.kind)
    (halike : List.Forall₂ Piece.Alike pieces others) :
    other.EndsBefore (others.flatMap Piece.text) := by
  intro hline c hc
  rw [hline] at hclass
  have hkind := hclass.eq_lineComment
  rcases head?_of_alike halike with heq | ⟨quote, _, hquote, _⟩
  · exact hend hkind c (heq ▸ hc)
  · have hnewline := hend hkind _ hquote
    cases quote <;> cases hnewline

/-! ## Kept characters -/

/-- No token starts at a character that is no quote, unless it is a slash before a slash or an
asterisk. -/
theorem afterNoise?_cons_eq_none {c : Char} {rest : List Char}
    (hquote : ∀ quote : Quote, c ≠ quote.char)
    (hslash : c = '/' → rest.head? ≠ some '/' ∧ rest.head? ≠ some '*') :
    afterNoise? (c :: rest) = none := by
  unfold afterNoise?
  split
  · next heq => cases heq; exact absurd rfl (hslash rfl).1
  · next heq => cases heq; exact absurd rfl (hslash rfl).2
  · next heq => cases heq; exact absurd rfl (hquote .double)
  · next heq => cases heq; exact absurd rfl (hquote .single)
  · rfl

/-- A slash that is kept does not stand before another slash. -/
theorem head?_ne_slash {rest : List Char} (h : afterNoise? ('/' :: rest) = none) :
    rest.head? ≠ some '/' := by
  intro hhead
  obtain ⟨tail, rfl⟩ := List.head?_eq_some_iff.mp hhead
  cases h

/-- A slash that is kept does not stand before an asterisk when no opener is left. -/
theorem NoOpenerLeft.head?_ne_asterisk {pieces : List Piece}
    (h : NoOpenerLeft (.code '/' :: pieces)) :
    (pieces.flatMap Piece.text).head? ≠ some '*' := by
  intro hhead
  rw [head?_flatMap_text] at hhead
  obtain ⟨piece, hpiece, hfirst⟩ := Option.map_eq_some_iff.mp hhead
  obtain ⟨after, rfl⟩ := List.head?_eq_some_iff.mp hpiece
  -- No token starts with an asterisk, so the asterisk is kept as well.
  cases piece with
  | code c =>
    cases hfirst
    exact h.no_blockComment ⟨[], after, rfl⟩
  | noise token =>
    obtain ⟨kind, _, _⟩ := token
    rcases kind with _ | _ | (_ | _) <;> cases hfirst

/-- **A text with other tokens is cut at the same places** when the text had no opener without an
end. -/
theorem Scan.replace {text : List Char} {pieces others : List Piece} (h : Scan text pieces)
    (hclosed : NoOpenerLeft pieces) (halike : List.Forall₂ Piece.Alike pieces others) :
    Scan (others.flatMap Piece.text) others := by
  induction h generalizing others with
  | nil =>
    cases halike
    exact .nil
  | @code c rest pieces hcode hrest ih =>
    cases halike with
    | @cons _ _ _ others hpiece htail =>
      cases hpiece
      have hquote : ∀ quote : Quote, c ≠ quote.char := by
        rintro quote rfl
        exact hclosed.no_quote quote List.mem_cons_self
      refine .code (afterNoise?_eq_none_iff.mp (afterNoise?_cons_eq_none hquote ?_))
        (ih hclosed.tail htail)
      -- What stands after a slash starts as it did before, or with a quote.
      rintro rfl
      have hkept := afterNoise?_eq_none_iff.mpr hcode
      rw [← hrest.flatMap_text] at hkept
      refine ⟨fun hslash => head?_ne_slash hkept ?_, fun hasterisk => hclosed.head?_ne_asterisk ?_⟩
      · exact head?_eq_some_of_alike htail (by rintro (_ | _) <;> decide) hslash
      · exact head?_eq_some_of_alike htail (by rintro (_ | _) <;> decide) hasterisk
  | @noise token rest pieces hend hrest ih =>
    cases halike with
    | cons hpiece htail =>
      cases hpiece with
      | noise hclass =>
        rw [← hrest.flatMap_text] at hend
        exact .noise (hend.replace hclass htail) (ih hclosed.tail htail)

/-- Tokens can be replaced without a difference to the text without noise. -/
theorem Scan.withoutNoise_replace {text : List Char} {pieces others : List Piece}
    (h : Scan text pieces) (hclosed : NoOpenerLeft pieces)
    (halike : List.Forall₂ Piece.Alike pieces others) :
    withoutNoise (others.flatMap Piece.text) = withoutNoise text := by
  rw [(h.replace hclosed halike).withoutNoise_eq, h.withoutNoise_eq,
    filterMap_code?_of_alike halike]

end Source

/-! ## Entities -/

namespace Entity

open ClassAtlas.Source

/-- Sources that agree but for their noise have entities that agree but for the number of lines. -/
theorem ofSource_congr {source other : String}
    (h : withoutNoise other.toList = withoutNoise source.toList) (settings : Settings)
    (known : NameSet) (path : String) :
    ofSource settings known path other =
      { ofSource settings known path source with lines := Text.nonBlankLines other.toList } := by
  unfold ofSource
  rw [h]

/-- **What comments and literals say makes no difference.** Every source is cut into kept characters
and tokens of noise in one way. When it has no opener without an end, each token can be replaced by
any other of its class: the text without noise stays the same, and so does everything about the
entity but its number of lines. -/
theorem noise_makes_no_difference (source : String) :
    ∃ pieces : List Piece, (∀ cut, Scan source.toList cut ↔ cut = pieces) ∧
      withoutNoise source.toList = pieces.filterMap Piece.code? ∧
      (NoOpenerLeft pieces → ∀ (others : List Piece) (other : String),
        List.Forall₂ Piece.Alike pieces others → other.toList = others.flatMap Piece.text →
        withoutNoise other.toList = withoutNoise source.toList ∧
        ∀ (settings : Settings) (known : NameSet) (path : String),
          ofSource settings known path other =
            { ofSource settings known path source with
              lines := Text.nonBlankLines other.toList }) := by
  obtain ⟨pieces, hscan⟩ := exists_scan source.toList
  refine ⟨pieces, fun cut => ⟨fun hcut => hcut.unique hscan, fun heq => heq ▸ hscan⟩,
    hscan.withoutNoise_eq, ?_⟩
  intro hclosed others other halike hother
  have hsame : withoutNoise other.toList = withoutNoise source.toList := by
    rw [hother, hscan.withoutNoise_replace hclosed halike]
  exact ⟨hsame, ofSource_congr hsame⟩

/-- A slash right before a literal, then a block comment and a line comment without a gap. -/
def plainPieces : List Piece :=
  [.code 'A', .code '/',
    .noise ⟨.literal .double, ['b'], .plain (by decide) (by decide) (by decide) .nil⟩,
    .noise ⟨.blockComment, [], admits_blockComment_nil⟩,
    .noise ⟨.lineComment, ['c'], (by decide : '\n' ∉ ['c'])⟩]

/-- The same with an escaped quote in the literal and with openers in the comments. -/
def disguisedPieces : List Piece :=
  [.code 'A', .code '/',
    .noise ⟨.literal .single, ['\\', '\x27'], .escaped '\x27' .nil⟩,
    .noise ⟨.blockComment, ['"', '/'], admits_blockComment_cons.mpr
      ⟨admits_blockComment_cons.mpr ⟨admits_blockComment_nil, by decide⟩, by decide⟩⟩,
    .noise ⟨.lineComment, ['"', '/', '*'], (by decide : '\n' ∉ ['"', '/', '*'])⟩]

/-- A literal with an escaped quote, and comments that hold quotes and openers of other noise, are
as good as plain ones. -/
theorem noise_makes_no_difference_disguised :
    Scan "A/\"b\"/**///c".toList plainPieces ∧ NoOpenerLeft plainPieces ∧
      List.Forall₂ Piece.Alike plainPieces disguisedPieces ∧
      withoutNoise "A/'\\''/*\"/*///\"/*".toList = withoutNoise "A/\"b\"/**///c".toList ∧
      ∀ (settings : Settings) (known : NameSet) (path : String),
        ofSource settings known path "A/'\\''/*\"/*///\"/*" =
          { ofSource settings known path "A/\"b\"/**///c" with
            lines := Text.nonBlankLines "A/'\\''/*\"/*///\"/*".toList } := by
  have hscan : Scan "A/\"b\"/**///c".toList plainPieces := by
    have htext : "A/\"b\"/**///c".toList = plainPieces.flatMap Piece.text := by decide
    rw [htext]
    exact .code (afterNoise?_eq_none_iff.mp rfl) (.code (afterNoise?_eq_none_iff.mp rfl)
      (.noise nofun (.noise nofun (.noise (fun _ => nofun) .nil))))
  have hclosed : NoOpenerLeft plainPieces :=
    ⟨by rintro (_ | _) <;> simp [plainPieces, Quote.char],
      by simp [plainPieces, List.infix_cons_iff]⟩
  have halike : List.Forall₂ Piece.Alike plainPieces disguisedPieces :=
    .cons (.code 'A') (.cons (.code '/')
      (.cons (.noise (.literal _ _))
        (.cons (.noise .blockComment) (.cons (.noise .lineComment) .nil))))
  obtain ⟨pieces, hcut, _, hreplace⟩ := noise_makes_no_difference "A/\"b\"/**///c"
  obtain rfl : plainPieces = pieces := (hcut plainPieces).mp hscan
  obtain ⟨hsame, hentity⟩ :=
    hreplace hclosed disguisedPieces "A/'\\''/*\"/*///\"/*" halike (by decide)
  exact ⟨hscan, hclosed, halike, hsame, hentity⟩

end Entity

end ClassAtlas
