import ClassAtlas.Proofs.Nesting
import ClassAtlas.Proofs.Spellings
import Mathlib.Computability.Language

/-!
# Type arguments as a pattern

A list of type arguments is given by a pattern of characters, repetitions and alternatives, with as
many levels of brackets written out as may be nested. This file proves that the pattern describes
the bracketed texts that are balanced, close only at their end, nest at most three deep and hold no
mark of another construct, and that the reader, which only counts open brackets, reads the same
texts. So where type arguments start, there is one place where they end, and a declared type can be
read with its arguments in one way only.
-/

namespace ClassAtlas.Source

open ClassAtlas.Text
open scoped Computability

/-! ## The pattern -/

/-- The texts of one character in a class. -/
def oneOf (p : Char → Bool) : Language Char :=
  {text | ∃ c, p c = true ∧ text = [c]}

/-- A character inside type arguments that is no bracket. -/
def isArgumentChar (c : Char) : Bool :=
  c ∉ ['<', '>', ';', '=', '(', ')', '{', '}']

/-- The pattern of type arguments, with its three levels of brackets. -/
def argumentPattern : Language Char :=
  {['<']} * (oneOf isArgumentChar +
    {['<']} * (oneOf isArgumentChar + {['<']} * (oneOf isArgumentChar)∗ * {['>']})∗ * {['>']})∗ *
      {['>']}

/-- The pattern of type arguments that may be missing, with the blanks before them. -/
def optionalArgumentPattern : Language Char :=
  1 + (oneOf isBlank)∗ * argumentPattern

/-- The pattern describes what stands in the text from one place to another. -/
def Matches (pattern : Language Char) (text : List Char) (start stop : Nat) : Prop :=
  start ≤ stop ∧ stop ≤ text.length ∧ text.extract start stop ∈ pattern

/-- The pattern of brackets that are nested at most so many levels deep. -/
def bracketed : Nat → Language Char
  | 0 => 0
  | levels + 1 => {['<']} * (oneOf isArgumentChar + bracketed levels)∗ * {['>']}

/-- The pattern is the one for as many levels as type arguments may have. -/
theorem argumentPattern_eq : argumentPattern = bracketed maxArgumentDepth := by
  simp only [argumentPattern, maxArgumentDepth, bracketed, add_zero]

/-- Brackets enclose characters and brackets of one level less. -/
theorem mem_bracketed_succ {levels : Nat} {text : List Char} :
    text ∈ bracketed (levels + 1) ↔
      ∃ inside ∈ (oneOf isArgumentChar + bracketed levels)∗, text = '<' :: (inside ++ ['>']) := by
  simp only [bracketed, Language.mem_mul]
  constructor
  · rintro ⟨-, ⟨-, rfl, inside, hinside, rfl⟩, -, rfl, rfl⟩
    exact ⟨inside, hinside, rfl⟩
  · rintro ⟨inside, hinside, rfl⟩
    exact ⟨_, ⟨_, rfl, inside, hinside, rfl⟩, _, rfl, rfl⟩

/-- A character of the class is a text of it. -/
theorem singleton_mem_oneOf {p : Char → Bool} {c : Char} (h : p c = true) : [c] ∈ oneOf p :=
  ⟨c, h, rfl⟩

/-- A repetition goes on with one more piece in front of it. -/
theorem append_mem_kstar {pattern : Language Char} {piece text : List Char}
    (hpiece : piece ∈ pattern) (htext : text ∈ pattern∗) : piece ++ text ∈ pattern∗ := by
  obtain ⟨pieces, rfl, hpieces⟩ := Language.mem_kstar.mp htext
  exact Language.mem_kstar.mpr ⟨piece :: pieces, rfl, List.forall_mem_cons.mpr ⟨hpiece, hpieces⟩⟩

/-- Repeated characters of a class are the texts of such characters. -/
theorem mem_kstar_oneOf {p : Char → Bool} {text : List Char} :
    text ∈ (oneOf p)∗ ↔ ∀ c ∈ text, p c = true := by
  constructor
  · intro h c hc
    obtain ⟨pieces, rfl, hpieces⟩ := Language.mem_kstar.mp h
    obtain ⟨piece, hpiece, hmem⟩ := List.mem_flatten.mp hc
    obtain ⟨d, hd, rfl⟩ := hpieces piece hpiece
    rwa [List.mem_singleton.mp hmem]
  · intro h
    induction text with
    | nil => exact Language.nil_mem_kstar _
    | cons c text ih =>
      obtain ⟨hc, htext⟩ := List.forall_mem_cons.mp h
      exact append_mem_kstar (singleton_mem_oneOf hc) (ih htext)

/-- Inside type arguments every character is read over that is no bracket and does not end a
type. -/
theorem isArgumentChar_iff {c : Char} :
    isArgumentChar c = true ↔ c ≠ '<' ∧ c ≠ '>' ∧ endsTypeText c = false := by
  simp [isArgumentChar, endsTypeText, and_assoc]

/-! ## Reading the pattern -/

/-- A bracket that is not the outermost one leads back to the one around it. -/
theorem afterClosing?_inner {opened : Nat} (hopened : 0 < opened) (rest : List Char) :
    afterClosing? (opened + 1) ('>' :: rest) = afterClosing? opened rest := by
  have hinner : ¬ opened + 1 ≤ 1 := by omega
  rw [afterClosing?, if_neg (by decide), if_pos rfl, if_neg hinner, Nat.add_sub_cancel]

/-- Inside of so many brackets the text is read without closing any of them. -/
def Passes (opened : Nat) (text : List Char) : Prop :=
  ∀ rest, afterClosing? opened (text ++ rest) = afterClosing? opened rest

section Passes

variable {opened : Nat}

/-- A character that is no bracket closes none. -/
theorem passes_argumentChar {c : Char} (h : isArgumentChar c = true) : Passes opened [c] := by
  obtain ⟨hopen, hclose, hends⟩ := isArgumentChar_iff.mp h
  intro rest
  rw [List.singleton_append, afterClosing?, if_neg hopen, if_neg hclose, if_neg (by simp [hends])]

/-- What closes no bracket does so when it is repeated. -/
theorem passes_kstar {pattern : Language Char} (h : ∀ piece ∈ pattern, Passes opened piece)
    {text : List Char} (htext : text ∈ pattern∗) : Passes opened text := by
  obtain ⟨pieces, rfl, hpieces⟩ := Language.mem_kstar.mp htext
  induction pieces with
  | nil => exact fun _ => rfl
  | cons piece pieces ih =>
    obtain ⟨hpiece, hrest⟩ := List.forall_mem_cons.mp hpieces
    intro rest
    rw [List.flatten_cons, List.append_assoc, h piece hpiece,
      ih hrest (Language.join_mem_kstar hrest)]

/-- What stands inside of brackets is passed over if it is not nested too deep for the place where
it stands. -/
theorem passes_inside {levels : Nat} (hopened : 0 < opened)
    (hdepth : opened + levels ≤ maxArgumentDepth) {text : List Char}
    (htext : text ∈ (oneOf isArgumentChar + bracketed levels)∗) : Passes opened text := by
  induction levels generalizing opened text with
  | zero =>
    rw [bracketed, add_zero] at htext
    refine passes_kstar (fun piece hpiece => ?_) htext
    obtain ⟨c, hc, rfl⟩ := hpiece
    exact passes_argumentChar hc
  | succ levels ih =>
    refine passes_kstar (fun piece hpiece => ?_) htext
    rcases (Language.mem_add _ _ _).mp hpiece with ⟨c, hc, rfl⟩ | hbracketed
    · exact passes_argumentChar hc
    · obtain ⟨inside, hinside, rfl⟩ := mem_bracketed_succ.mp hbracketed
      have hpasses : Passes (opened + 1) inside := ih (by omega) (by omega) hinside
      have hdeeper : opened < maxArgumentDepth := by omega
      intro rest
      rw [List.cons_append, afterClosing?, if_pos rfl, if_pos hdeeper, List.append_assoc, hpasses,
        List.singleton_append, afterClosing?_inner hopened]

end Passes

/-- What is read up to the bracket that closes the innermost open one is text of the pattern. -/
theorem exists_nested_of_afterClosing? {opened : Nat} {text rest : List Char} (hopened : 0 < opened)
    (hdepth : opened ≤ maxArgumentDepth) (h : afterClosing? opened text = some rest) :
    ∃ inside more, text = inside ++ '>' :: more ∧
      inside ∈ (oneOf isArgumentChar + bracketed (maxArgumentDepth - opened))∗ ∧
      afterClosing? opened ('>' :: more) = some rest := by
  induction hlength : text.length using Nat.strong_induction_on generalizing opened text rest with
  | _ length ih =>
    subst hlength
    cases text with
    | nil => cases h
    | cons c text =>
      rw [afterClosing?] at h
      split_ifs at h with hopen hdeeper hclose hlast hends
      · -- A bracket opens: what it encloses is read first, and then what follows it on this level.
        obtain ⟨inner, more, rfl, hinner, hmore⟩ :=
          ih _ (by simp) (Nat.add_pos_left hopened 1) hdeeper h rfl
        rw [afterClosing?_inner hopened] at hmore
        obtain ⟨outer, after, rfl, houter, hafter⟩ := ih _ (by simp; omega) hopened hdepth hmore rfl
        have hlevels : maxArgumentDepth - opened = maxArgumentDepth - (opened + 1) + 1 := by omega
        have hpiece : '<' :: (inner ++ ['>']) ∈ bracketed (maxArgumentDepth - opened) := by
          rw [hlevels]
          exact mem_bracketed_succ.mpr ⟨inner, hinner, rfl⟩
        refine ⟨'<' :: (inner ++ ['>']) ++ outer, after, by simp [hopen], ?_, hafter⟩
        exact append_mem_kstar ((Language.mem_add _ _ _).mpr (.inr hpiece)) houter
      · refine ⟨[], text, by rw [hclose, List.nil_append], Language.nil_mem_kstar _, ?_⟩
        rw [afterClosing?, if_neg (by decide), if_pos rfl, if_pos hlast, h]
      · refine ⟨[], text, by rw [hclose, List.nil_append], Language.nil_mem_kstar _, ?_⟩
        rw [afterClosing?, if_neg (by decide), if_pos rfl, if_neg hlast, h]
      · obtain ⟨inside, more, rfl, hinside, hmore⟩ := ih _ (by simp) hopened hdepth h rfl
        have hc : isArgumentChar c = true :=
          isArgumentChar_iff.mpr ⟨hopen, hclose, by simpa using hends⟩
        refine ⟨c :: inside, more, rfl, ?_, hmore⟩
        exact append_mem_kstar
          ((Language.mem_add _ _ _).mpr (.inl (singleton_mem_oneOf hc))) hinside

/-- **The reader of type arguments reads the texts of the pattern.** -/
theorem mem_argumentPattern_iff {text : List Char} :
    text ∈ argumentPattern ↔ IsArgumentList text := by
  rw [argumentPattern_eq]
  constructor
  · intro h
    obtain ⟨inside, hinside, rfl⟩ := mem_bracketed_succ.mp h
    exact passes_inside Nat.one_pos (by decide) hinside ['>']
  · intro h
    obtain ⟨inside, rfl, hinside⟩ := h.exists_eq
    obtain ⟨inner, more, rfl, hinner, hmore⟩ :=
      exists_nested_of_afterClosing? Nat.one_pos (by decide) hinside
    obtain rfl : more = [] := Option.some.inj hmore
    exact mem_bracketed_succ.mpr ⟨inner, hinner, rfl⟩

/-! ## Balance -/

/-- The text is a list of type arguments by its brackets: it starts and ends with one, is balanced
as a whole and no sooner, nests its brackets no deeper than allowed and holds no mark of another
construct. -/
structure IsArgumentBrackets (text : List Char) : Prop where
  starts : text.head? = some '<'
  ends : text.getLast? = some '>'
  balanced : Balanced '<' '>' text
  no_sooner : ∀ front, front <+: text → front ≠ [] → front ≠ text → ¬ Balanced '<' '>' front
  no_deeper : ∀ front, front <+: text → front.count '<' ≤ front.count '>' + 3
  no_mark : ∀ c ∈ text, c ∉ [';', '=', '(', ')', '{', '}']

/-- The text closes so many brackets that were open before it, the first of them with its last
character, and opens no more than may be nested. -/
structure Closes (opened : Nat) (text : List Char) : Prop where
  settled : opened + text.count '<' = text.count '>'
  no_sooner : ∀ front, front <+: text → front ≠ text → front.count '>' < opened + front.count '<'
  no_deeper :
      ∀ front, front <+: text → opened + front.count '<' ≤ front.count '>' + maxArgumentDepth
  no_mark : ∀ c ∈ text, endsTypeText c = false

section Closes

variable {opened : Nat} {text : List Char}

/-- The first character is counted on its own. -/
theorem count_cons_eq (x c : Char) (text : List Char) :
    (c :: text).count x = [c].count x + text.count x := by
  rw [← List.count_append, List.singleton_append]

/-- Nothing is left to be closed only after the end. -/
theorem closes_zero_iff : Closes 0 text ↔ text = [] := by
  constructor
  · intro h
    by_contra hne
    exact Nat.lt_irrefl 0 (h.no_sooner [] List.nil_prefix (Ne.symm hne))
  · rintro rfl
    constructor
    case settled => rfl
    case no_sooner => intro front hfront hne; exact absurd (List.prefix_nil.mp hfront) hne
    case no_deeper => intro front hfront; rw [List.prefix_nil.mp hfront]; exact Nat.zero_le _
    case no_mark => intro c hc; cases hc

/-- One character changes how many brackets are left to be closed. -/
theorem closes_cons_iff {next : Nat} {c : Char} (hopened : 0 < opened)
    (hdepth : opened ≤ maxArgumentDepth) (hc : endsTypeText c = false)
    (hnext : opened + [c].count '<' = next + [c].count '>') :
    Closes opened (c :: text) ↔ Closes next text := by
  constructor
  · intro h
    constructor
    case settled =>
      have hsettled := h.settled
      rw [count_cons_eq '<', count_cons_eq '>'] at hsettled
      omega
    case no_sooner =>
      intro front hfront hne
      have hcons :=
        h.no_sooner (c :: front) (List.cons_prefix_cons.mpr ⟨rfl, hfront⟩) (by simpa using hne)
      rw [count_cons_eq '<', count_cons_eq '>'] at hcons
      omega
    case no_deeper =>
      intro front hfront
      have hcons := h.no_deeper (c :: front) (List.cons_prefix_cons.mpr ⟨rfl, hfront⟩)
      rw [count_cons_eq '<', count_cons_eq '>'] at hcons
      omega
    case no_mark => exact fun d hd => h.no_mark d (List.mem_cons_of_mem c hd)
  · intro h
    constructor
    case settled =>
      have hsettled := h.settled
      rw [count_cons_eq '<', count_cons_eq '>']
      omega
    case no_sooner =>
      intro front hfront hne
      rcases List.prefix_cons_iff.mp hfront with rfl | ⟨front, rfl, hrest⟩
      · exact hopened
      · have hbefore := h.no_sooner front hrest (by simpa using hne)
        rw [count_cons_eq '<', count_cons_eq '>']
        omega
    case no_deeper =>
      intro front hfront
      rcases List.prefix_cons_iff.mp hfront with rfl | ⟨front, rfl, hrest⟩
      · simpa using hdepth
      · have hwithin := h.no_deeper front hrest
        rw [count_cons_eq '<', count_cons_eq '>']
        omega
    case no_mark => exact List.forall_mem_cons.mpr ⟨hc, h.no_mark⟩

/-- The reader counts: it reads a text to its end exactly if the text closes what is open. -/
theorem afterClosing?_eq_nil_iff (hopened : 0 < opened) (hdepth : opened ≤ maxArgumentDepth) :
    afterClosing? opened text = some [] ↔ Closes opened text := by
  induction text generalizing opened with
  | nil =>
    refine iff_of_false (by simp [afterClosing?]) fun h => ?_
    have hsettled := h.settled
    simp at hsettled
    omega
  | cons c text ih =>
    rw [afterClosing?]
    split_ifs with hopen hdeeper hclose hlast hends
    · subst hopen
      rw [ih (Nat.add_pos_left hopened 1) hdeeper]
      exact (closes_cons_iff hopened hdepth (by decide) rfl).symm
    · subst hopen
      refine iff_of_false (by simp) fun h => ?_
      have hfirst := h.no_deeper ['<'] ⟨text, rfl⟩
      simp at hfirst
      omega
    · subst hclose
      rw [Option.some.injEq, ← closes_zero_iff]
      exact (closes_cons_iff hopened hdepth (by decide) (by simp; omega)).symm
    · subst hclose
      rw [ih (by omega) (by omega)]
      exact (closes_cons_iff hopened hdepth (by decide) (by simp; omega)).symm
    · refine iff_of_false (by simp) fun h => ?_
      rw [h.no_mark c List.mem_cons_self] at hends
      cases hends
    · rw [ih hopened hdepth]
      refine (closes_cons_iff hopened hdepth (by simpa using hends) ?_).symm
      simp [hopen, hclose]

/-- What closes the last open bracket is a closing bracket. -/
theorem Closes.getLast?_eq (hopened : 0 < opened) (h : Closes opened text) :
    text.getLast? = some '>' := by
  rcases List.eq_nil_or_concat' text with rfl | ⟨front, c, rfl⟩
  · have hsettled := h.settled
    simp at hsettled
    omega
  · have hbefore := h.no_sooner front ⟨[c], rfl⟩ (by simp)
    have hsettled := h.settled
    rw [List.count_append, List.count_append, List.count_singleton, List.count_singleton]
      at hsettled
    rw [List.getLast?_concat]
    by_contra hne
    simp only [Option.some.injEq] at hne
    simp only [beq_iff_eq, hne, if_false] at hsettled
    omega

end Closes

/-- The characters that end a type, as a list. -/
theorem endsTypeText_eq_false_iff {c : Char} :
    endsTypeText c = false ↔ c ∉ [';', '=', '(', ')', '{', '}'] := by
  simp [endsTypeText, and_assoc]

/-- Brackets are balanced as a whole and no sooner exactly if what follows the first one closes
it. -/
theorem isArgumentBrackets_iff {text : List Char} :
    IsArgumentBrackets text ↔ ∃ inside, text = '<' :: inside ∧ Closes 1 inside := by
  have hopening (front : List Char) : ('<' :: front).count '<' = 1 + front.count '<' :=
    count_cons_eq '<' '<' front
  have hclosing (front : List Char) : ('<' :: front).count '>' = front.count '>' := by simp
  constructor
  · intro h
    obtain ⟨inside, rfl⟩ : ∃ inside, text = '<' :: inside := List.head?_eq_some_iff.mp h.starts
    have hfronts {front : List Char} (hfront : front <+: inside) : '<' :: front <+: '<' :: inside :=
      List.cons_prefix_cons.mpr ⟨rfl, hfront⟩
    refine ⟨inside, rfl, ?_⟩
    constructor
    case settled => rw [← hopening, ← hclosing, h.balanced.settled]
    case no_sooner =>
      intro front hfront hne
      have hcovered := h.balanced.covered _ (hfronts hfront)
      rw [hopening, hclosing] at hcovered
      refine Nat.lt_of_le_of_ne hcovered fun hsettled => ?_
      refine h.no_sooner _ (hfronts hfront) (List.cons_ne_nil _ _) (by simpa using hne)
        ⟨fun part hpart => ?_, ?_⟩
      · exact h.balanced.covered part (hpart.trans (hfronts hfront))
      · rw [hopening, hclosing, hsettled]
    case no_deeper =>
      intro front hfront
      have hdeep := h.no_deeper _ (hfronts hfront)
      rwa [hopening, hclosing] at hdeep
    case no_mark =>
      intro c hc
      exact endsTypeText_eq_false_iff.mpr (h.no_mark c (List.mem_cons_of_mem _ hc))
  · rintro ⟨inside, rfl, h⟩
    constructor
    case starts => rfl
    case ends =>
      rw [List.getLast?_cons, h.getLast?_eq Nat.one_pos, Option.getD_some]
    case balanced =>
      refine ⟨fun front hfront => ?_, by rw [hopening, hclosing, h.settled]⟩
      rcases List.prefix_cons_iff.mp hfront with rfl | ⟨front, rfl, hrest⟩
      · exact Nat.le_refl _
      · rw [hopening, hclosing]
        by_cases hwhole : front = inside
        · rw [hwhole, h.settled]
        · exact (h.no_sooner front hrest hwhole).le
    case no_sooner =>
      intro front hfront hne hpart hbalanced
      obtain ⟨front, rfl, hrest⟩ := (List.prefix_cons_iff.mp hfront).resolve_left hne
      have hopen := h.no_sooner front hrest (by simpa using hpart)
      have hsettled := hbalanced.settled
      rw [hopening, hclosing] at hsettled
      omega
    case no_deeper =>
      intro front hfront
      rcases List.prefix_cons_iff.mp hfront with rfl | ⟨front, rfl, hrest⟩
      · exact Nat.zero_le _
      · rw [hopening, hclosing]
        exact h.no_deeper front hrest
    case no_mark =>
      intro c hc
      rcases List.mem_cons.mp hc with rfl | hc
      · decide
      · exact endsTypeText_eq_false_iff.mp (h.no_mark c hc)

/-- What is read as type arguments is described by its brackets. -/
theorem isArgumentList_iff {text : List Char} : IsArgumentList text ↔ IsArgumentBrackets text := by
  rw [isArgumentBrackets_iff]
  constructor
  · intro h
    obtain ⟨inside, rfl, hinside⟩ := h.exists_eq
    exact ⟨inside, rfl, (afterClosing?_eq_nil_iff Nat.one_pos (by decide)).mp hinside⟩
  · rintro ⟨inside, rfl, hcloses⟩
    exact (afterClosing?_eq_nil_iff Nat.one_pos (by decide)).mpr hcloses

/-! ## Places in a text -/

section Places

variable {text : List Char} {start stop other : Nat}

/-- What stands between two places is followed by what stands from the second one on. -/
theorem drop_eq_extract_append (hrange : start ≤ stop) :
    text.drop start = text.extract start stop ++ text.drop stop := by
  conv => lhs; rw [← List.take_append_drop (stop - start) (text.drop start)]
  rw [List.drop_drop, Nat.add_sub_cancel' hrange]

/-- A text that stands in front of what follows a place reaches up to that place. -/
theorem eq_extract_of_drop_eq {list : List Char} (hstop : stop ≤ text.length) (hne : list ≠ [])
    (h : text.drop start = list ++ text.drop stop) :
    start ≤ stop ∧ list = text.extract start stop := by
  have hlength := congrArg List.length h
  rw [List.length_append, List.length_drop, List.length_drop] at hlength
  have hpos := List.length_pos_of_ne_nil hne
  have hrange : start ≤ stop := by omega
  refine ⟨hrange, ?_⟩
  rw [drop_eq_extract_append hrange] at h
  exact (List.append_cancel_right h).symm

/-- What is read away as type arguments is a list of them. -/
theorem exists_of_afterTypeArguments? {text rest : List Char}
    (h : afterTypeArguments? text = some rest) :
    ∃ list, IsArgumentList list ∧ text = list ++ rest := by
  unfold afterTypeArguments? at h
  split at h
  · obtain ⟨inside, rfl, hinside⟩ := exists_of_afterClosing? h
    exact ⟨'<' :: inside, hinside, rfl⟩
  · cases h

/-- The pattern reaches from one place to another exactly if the reader does. -/
theorem matches_argumentPattern_iff :
    Matches argumentPattern text start stop ↔
      stop ≤ text.length ∧ afterTypeArguments? (text.drop start) = some (text.drop stop) := by
  constructor
  · rintro ⟨hrange, hstop, hmem⟩
    refine ⟨hstop, ?_⟩
    rw [drop_eq_extract_append hrange]
    exact (mem_argumentPattern_iff.mp hmem).afterTypeArguments? _
  · rintro ⟨hstop, hread⟩
    obtain ⟨list, hlist, hsplit⟩ := exists_of_afterTypeArguments? hread
    have hne : list ≠ [] := by
      obtain ⟨inside, rfl, -⟩ := hlist.exists_eq
      exact List.cons_ne_nil _ _
    obtain ⟨hrange, rfl⟩ := eq_extract_of_drop_eq hstop hne hsplit
    exact ⟨hrange, hstop, mem_argumentPattern_iff.mpr hlist⟩

/-- Two places from which the same text follows are the same. -/
theorem eq_of_drop_eq (hstop : stop ≤ text.length) (hother : other ≤ text.length)
    (h : text.drop stop = text.drop other) : stop = other := by
  have hlength := congrArg List.length h
  rw [List.length_drop, List.length_drop] at hlength
  omega

/-! ## Type arguments that may be missing -/

/-- Blanks and a name follow, as they do after the type in a declaration. -/
def NameFollows (text : List Char) : Prop :=
  ∃ gap c rest, gap ≠ [] ∧ IsGap gap ∧ isNameStart c = true ∧ text = gap ++ c :: rest

/-- Type arguments may be missing, and blanks may stand before them. -/
theorem mem_optionalArgumentPattern_iff :
    text ∈ optionalArgumentPattern ↔
      text = [] ∨ ∃ gap list, IsGap gap ∧ IsArgumentList list ∧ text = gap ++ list := by
  rw [optionalArgumentPattern, Language.mem_add, Language.mem_one, Language.mem_mul]
  simp only [mem_kstar_oneOf, mem_argumentPattern_iff, IsGap]
  constructor
  · rintro (rfl | ⟨gap, hgap, list, hlist, rfl⟩)
    · exact .inl rfl
    · exact .inr ⟨gap, list, hgap, hlist, rfl⟩
  · rintro (rfl | ⟨gap, list, hgap, hlist, rfl⟩)
    · exact .inl rfl
    · exact .inr ⟨gap, hgap, list, hlist, rfl⟩

/-- Where a name follows at once, no type arguments are read. -/
theorem NameFollows.afterOptionalTypeArguments? (h : NameFollows text) :
    afterOptionalTypeArguments? text = some text := by
  obtain ⟨gap, c, rest, -, hgap, hc, rfl⟩ := h
  have hname := isNameChar_of_isNameStart hc
  have hhead : ∀ d ∈ (c :: rest).head?, isBlank d = false := by
    rintro d hd
    obtain rfl := Option.some.inj hd
    exact not_isBlank_of_isNameChar hname
  have hbracket : c ≠ '<' := by
    rintro rfl
    exact absurd hname (by decide)
  unfold Source.afterOptionalTypeArguments?
  rw [afterBlanks_append hgap hhead]
  split
  · rename_i after heq
    exact absurd (List.cons.inj heq).1 hbracket
  · rfl

/-- The reader takes type arguments that may be missing in the way that the pattern does, if it
takes them at all or a name follows. -/
theorem Matches.afterOptionalTypeArguments? (h : Matches optionalArgumentPattern text start stop)
    (htaken : start < stop ∨ NameFollows (text.drop stop)) :
    afterOptionalTypeArguments? (text.drop start) = some (text.drop stop) := by
  obtain ⟨hrange, hstop, hmem⟩ := h
  rw [drop_eq_extract_append hrange]
  rcases mem_optionalArgumentPattern_iff.mp hmem with hnil | ⟨gap, list, hgap, hlist, heq⟩
  · -- Nothing was taken, so a name follows.
    have hlength := congrArg List.length hnil
    rw [List.length_take, List.length_drop, List.length_nil] at hlength
    rw [hnil, List.nil_append]
    exact (htaken.resolve_left (by omega)).afterOptionalTypeArguments?
  · rw [heq]
    exact hlist.afterOptionalTypeArguments? hgap _

end Places

/-- **Type arguments are read in one way.** From one place of a text to another the pattern of type
arguments matches exactly if there stands a text in brackets that is balanced as a whole and no
sooner, nests at most three deep and holds no mark of another construct, and exactly if the reader
reads from the one place to the other. So it matches from any place to one other place at most. The
same holds of type arguments that may be missing, with the blanks before them: they are taken in at
most one way, and if a name has to follow, they are taken or left in the way that the reader
goes. -/
theorem argumentPattern_unambiguous (text : List Char) (start stop : Nat) :
    (Matches argumentPattern text start stop ↔
      start ≤ stop ∧ stop ≤ text.length ∧ IsArgumentBrackets (text.extract start stop)) ∧
    (Matches argumentPattern text start stop ↔
      stop ≤ text.length ∧ afterTypeArguments? (text.drop start) = some (text.drop stop)) ∧
    (∀ other, Matches argumentPattern text start stop → Matches argumentPattern text start other →
      stop = other) ∧
    (Matches optionalArgumentPattern text start stop → start < stop ∨ NameFollows (text.drop stop) →
      afterOptionalTypeArguments? (text.drop start) = some (text.drop stop) ∧
      ∀ other, Matches optionalArgumentPattern text start other → start < other ∨
        NameFollows (text.drop other) →
        stop = other) := by
  refine ⟨?_, matches_argumentPattern_iff, fun other h hother => ?_,
    fun h htaken => ⟨?_, fun other hother hways => ?_⟩⟩
  · rw [Matches, mem_argumentPattern_iff, isArgumentList_iff]
  · have hread := (matches_argumentPattern_iff.mp h).2
    rw [(matches_argumentPattern_iff.mp hother).2, Option.some.injEq] at hread
    exact (eq_of_drop_eq hother.2.1 h.2.1 hread).symm
  · exact h.afterOptionalTypeArguments? htaken
  · have hread := h.afterOptionalTypeArguments? htaken
    rw [hother.afterOptionalTypeArguments? hways, Option.some.injEq] at hread
    exact (eq_of_drop_eq hother.2.1 h.2.1 hread).symm

/-- A field whose type has nested arguments after a blank. -/
def nestedField : List Char := "Map <K, List<V>> m;".toList

/-- The type arguments of the field reach up to the second closing bracket and nowhere else, with or
without the blank before them. -/
theorem argumentPattern_unambiguous_nested :
    Matches argumentPattern nestedField 4 16 ∧ IsArgumentBrackets (nestedField.extract 4 16) ∧
      (∀ other, Matches argumentPattern nestedField 4 other → 16 = other) ∧
      Matches optionalArgumentPattern nestedField 3 16 ∧
      ∀ other, Matches optionalArgumentPattern nestedField 3 other →
        3 < other ∨ NameFollows (nestedField.drop other) → 16 = other := by
  obtain ⟨hbrackets, hreader, hunique, -⟩ := argumentPattern_unambiguous nestedField 4 16
  have hmatches : Matches argumentPattern nestedField 4 16 := hreader.mpr ⟨by decide, by decide⟩
  have hlist : IsArgumentList (nestedField.extract 4 16) := by unfold IsArgumentList; decide
  have hoptional : Matches optionalArgumentPattern nestedField 3 16 := by
    refine ⟨by decide, by decide,
      mem_optionalArgumentPattern_iff.mpr (.inr ⟨[' '], _, ?_, hlist, by decide⟩)⟩
    simp [IsGap, isBlank]
  have hgroup := (argumentPattern_unambiguous nestedField 3 16).2.2.2 hoptional (.inl (by decide))
  exact ⟨hmatches, (hbrackets.mp hmatches).2.2, fun other => hunique other hmatches,
    hoptional, hgroup.2⟩

end ClassAtlas.Source
