import ClassAtlas.Proofs.NoiseScan

/-!
# Runs of kept text

A source text is a run of kept characters, a token of noise, another run, another token, and so on
up to a last run. The scan is leftmost: no token starts at any position inside a run. This file
proves that every text is made up in this way exactly once, and that the text without noise is its
runs one after another.
-/

namespace ClassAtlas.Source

/-- A token of noise starts the text. -/
def StartsNoise (text : List Char) : Prop :=
  ∃ (token : NoiseToken) (rest : List Char), token.EndsBefore rest ∧ text = token.text ++ rest

/-- No token starts at a position inside the run, which is followed by the given text. -/
def NoNoiseIn (run rest : List Char) : Prop :=
  ∀ front back, run = front ++ back → back ≠ [] → ¬ StartsNoise (back ++ rest)

/-- Runs of kept characters with tokens of noise between them. -/
inductive Segments
  | last (run : List Char)
  | before (run : List Char) (token : NoiseToken) (rest : Segments)

namespace Segments

/-- The text that is made up of the segments. -/
def text : Segments → List Char
  | last run => run
  | before run token rest => run ++ (token.text ++ rest.text)

/-- The runs, one after another. -/
def kept : Segments → List Char
  | last run => run
  | before run _ rest => run ++ rest.kept

/-- Every token ends where it must, and no run has the start of a token in it. -/
def IsLeftmost : Segments → Prop
  | last run => NoNoiseIn run []
  | before run token rest =>
    NoNoiseIn run (token.text ++ rest.text) ∧ token.EndsBefore rest.text ∧ rest.IsLeftmost

/-! ## Segments and pieces -/

/-- The segments with one more character in front of the first run. -/
def cons (c : Char) : Segments → Segments
  | last run => last (c :: run)
  | before run token rest => before (c :: run) token rest

/-- The characters of the runs and the tokens as pieces of a cut. -/
def pieces : Segments → List Piece
  | last run => run.map .code
  | before run token rest => run.map .code ++ .noise token :: rest.pieces

/-- The pieces of a cut with the kept characters between two tokens joined to a run. -/
def ofPieces : List Piece → Segments
  | [] => last []
  | .code c :: pieces => (ofPieces pieces).cons c
  | .noise token :: pieces => before [] token (ofPieces pieces)

/-- A character before the segments stands before their text. -/
@[simp] theorem text_cons (c : Char) (segments : Segments) :
    (segments.cons c).text = c :: segments.text := by
  cases segments <;> rfl

/-- A run in front of other pieces is joined to their first run. -/
theorem ofPieces_map_code_append (run : List Char) (pieces : List Piece) :
    ofPieces (run.map .code ++ pieces) = run.foldr cons (ofPieces pieces) := by
  induction run with
  | nil => rfl
  | cons c run ih => exact congrArg (cons c) ih

/-- Characters before the last segment join its run. -/
theorem foldr_cons_last (run tail : List Char) :
    run.foldr cons (last tail) = last (run ++ tail) := by
  induction run with
  | nil => rfl
  | cons c run ih => exact congrArg (cons c) ih

/-- Characters before a segment join its run and leave its token alone. -/
theorem foldr_cons_before (run tail : List Char) (token : NoiseToken) (rest : Segments) :
    run.foldr cons (before tail token rest) = before (run ++ tail) token rest := by
  induction run with
  | nil => rfl
  | cons c run ih => exact congrArg (cons c) ih

/-- The segments are known from their pieces. -/
theorem ofPieces_pieces (segments : Segments) : ofPieces segments.pieces = segments := by
  induction segments with
  | last run =>
    have hjoin := ofPieces_map_code_append run []
    rwa [List.append_nil, ofPieces, foldr_cons_last, List.append_nil] at hjoin
  | before run token rest ih =>
    rw [pieces, ofPieces_map_code_append, ofPieces, ih, foldr_cons_before, List.append_nil]

/-- What the segments keep is what their pieces keep. -/
theorem filterMap_pieces (segments : Segments) :
    segments.pieces.filterMap Piece.code? = segments.kept := by
  have hrun (run : List Char) : (run.map Piece.code).filterMap Piece.code? = run := by
    rw [List.filterMap_map]
    exact List.filterMap_some
  induction segments with
  | last run => exact hrun run
  | before run token rest ih =>
    rw [pieces, List.filterMap_append, hrun, List.filterMap_cons, ih]
    rfl

/-! ## Segments and scans -/

/-- A run without the start of a token is cut into its characters. -/
theorem scan_append {run rest : List Char} {pieces : List Piece} (hrun : NoNoiseIn run rest)
    (hrest : Scan rest pieces) : Scan (run ++ rest) (run.map .code ++ pieces) := by
  induction run with
  | nil => exact hrest
  | cons c run ih =>
    have htail : NoNoiseIn run rest :=
      fun front back heq hback => hrun (c :: front) back (by rw [heq]; rfl) hback
    refine .code (fun token after hend heq => ?_) (ih htail)
    exact hrun [] (c :: run) rfl (List.cons_ne_nil c run) ⟨token, after, hend, heq⟩

/-- Leftmost segments are what the scan from the left finds. -/
theorem IsLeftmost.scan {segments : Segments} (h : segments.IsLeftmost) :
    Scan segments.text segments.pieces := by
  induction segments with
  | last run => simpa [text, pieces] using scan_append h .nil
  | before run token rest ih =>
    obtain ⟨hrun, hend, hrest⟩ := h
    exact scan_append hrun (.noise hend (ih hrest))

/-- A character can be put in front of a run unless a token starts with it. -/
theorem NoNoiseIn.cons {c : Char} {run rest : List Char} (h : NoNoiseIn run rest)
    (hc : ¬ StartsNoise (c :: run ++ rest)) : NoNoiseIn (c :: run) rest := by
  intro front back heq hback
  cases front with
  | nil =>
    rw [List.nil_append] at heq
    exact heq ▸ hc
  | cons d front => exact h front back (List.cons.inj heq).2 hback

/-- A character that starts no noise may stand before leftmost segments. -/
theorem IsLeftmost.cons {c : Char} {segments : Segments} (h : segments.IsLeftmost)
    (hc : ¬ StartsNoise (c :: segments.text)) : (segments.cons c).IsLeftmost := by
  cases segments with
  | last run => exact NoNoiseIn.cons h (by simpa [text] using hc)
  | before run token rest => exact ⟨NoNoiseIn.cons h.1 hc, h.2⟩

/-- No noise starts in the empty run. -/
theorem noNoiseIn_nil (rest : List Char) : NoNoiseIn [] rest := by
  intro front back heq hback
  exact absurd (List.append_eq_nil_iff.mp heq.symm).2 hback

/-- Joined to segments, the pieces of a scan are leftmost and make up the same text. -/
theorem ofPieces_of_scan {text : List Char} {pieces : List Piece} (h : Scan text pieces) :
    (ofPieces pieces).text = text ∧ (ofPieces pieces).IsLeftmost := by
  induction h with
  | nil => exact ⟨rfl, noNoiseIn_nil []⟩
  | @code c rest pieces hcode _ ih =>
    obtain ⟨htext, hleft⟩ := ih
    refine ⟨by rw [ofPieces, text_cons, htext], hleft.cons ?_⟩
    rintro ⟨token, after, hend, heq⟩
    exact hcode token after hend (htext ▸ heq)
  | noise hend _ ih =>
    obtain ⟨htext, hleft⟩ := ih
    exact ⟨by rw [ofPieces, Segments.text, htext, List.nil_append], noNoiseIn_nil _,
      htext.symm ▸ hend, hleft⟩

end Segments

/-- **The scan for noise is leftmost.** Every text is made up of runs and tokens in exactly one way
in which no token starts inside a run, and the text without noise consists of these runs. -/
theorem withoutNoise_leftmost (text : List Char) :
    ∃ segments : Segments, segments.text = text ∧ segments.IsLeftmost ∧
      withoutNoise text = segments.kept ∧
      ∀ other : Segments, other.text = text → other.IsLeftmost → other = segments := by
  obtain ⟨pieces, hscan⟩ := exists_scan text
  obtain ⟨htext, hleft⟩ := Segments.ofPieces_of_scan hscan
  refine ⟨Segments.ofPieces pieces, htext, hleft, ?_, fun other hother hleft' => ?_⟩
  · rw [← Segments.filterMap_pieces, ← hleft.scan.withoutNoise_eq, htext]
  · have hpieces : other.pieces = pieces := (hother ▸ hleft'.scan).unique hscan
    rw [← other.ofPieces_pieces, hpieces]

end ClassAtlas.Source
