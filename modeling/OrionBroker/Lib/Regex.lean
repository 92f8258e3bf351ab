import Mathlib.Data.List.Infix

/-!
# Regular expressions as a search: the fragment without groups and classes

A pattern is a list of alternatives, an alternative a list of pieces, a piece an atom with a
quantifier. `search` is the unanchored search of PCRE: the pattern may match anywhere in the subject,
`^` only at its start, `$` at its end *or before a final newline* (PCRE without `DOLLAR_ENDONLY`),
`.` is any character but the newline.

`parse` reads the text of a pattern; `none` means the text is malformed or uses syntax outside the
fragment (groups, classes, counted repetition, letter escapes).

| here | meaning |
| --- | --- |
| `search_lits`  | a literal pattern finds exactly the subjects that contain it |
| `search_whole` | `^p$` finds exactly `p`, and `p` followed by one newline |
| `search_front` | `^p.*` finds exactly the subjects that begin with `p` |
| `parse_wholes`, `search_wholes` | the same for `^p$\|^q$\|…` |
| `Reads`        | a piece of pattern text that stands for a string of literal characters |
-/

namespace Regex

inductive Atom where
  | chr (c : Char)
  | any
  | bol
  | eol
deriving DecidableEq, Repr

inductive Quant where
  | one
  | star
  | plus
  | opt
deriving DecidableEq, Repr

structure Piece where
  atom : Atom
  quant : Quant := .one
deriving DecidableEq, Repr

/-- One alternative. -/
abbrev Branch := List Piece

/-- A pattern: its alternatives. -/
abbrev Pattern := List Branch

/-! ## Matching -/

/-- The characters an atom consumes; the anchors consume nothing. -/
def Atom.eats : Atom → Char → Bool
  | .chr a, c => a == c
  | .any, c => c != '\n'
  | .bol, _ => false
  | .eol, _ => false

/-- `$` holds at the end of the subject and before a final newline. -/
def atEnd : List Char → Bool
  | [] => true
  | ['\n'] => true
  | _ => false

/-- One occurrence of `a`, then `k`. `start` says whether nothing of the subject precedes `s`. -/
def Atom.once (a : Atom) (k : Bool → List Char → Bool) (start : Bool) (s : List Char) : Bool :=
  match a with
  | .bol => start && k start s
  | .eol => atEnd s && k start s
  | a => match s with
    | [] => false
    | c :: cs => a.eats c && k false cs

/-- Any number of occurrences of `a`, then `k`. -/
def Atom.many (a : Atom) (k : Bool → List Char → Bool) : Bool → List Char → Bool
  | start, [] => k start []
  | start, c :: cs => k start (c :: cs) || (a.eats c && Atom.many a k false cs)

/-- The alternative matches at this place of the subject. -/
def matchHere : Branch → Bool → List Char → Bool
  | [], _, _ => true
  | ⟨a, .one⟩ :: ps, start, s => a.once (matchHere ps) start s
  | ⟨a, .star⟩ :: ps, start, s => a.many (matchHere ps) start s
  | ⟨a, .plus⟩ :: ps, start, s => a.once (a.many (matchHere ps)) start s
  | ⟨a, .opt⟩ :: ps, start, s => matchHere ps start s || a.once (matchHere ps) start s

/-- Some alternative matches here or further on. -/
def searchFrom (r : Pattern) : Bool → List Char → Bool
  | start, [] => r.any fun b => matchHere b start []
  | start, c :: cs => (r.any fun b => matchHere b start (c :: cs)) || searchFrom r false cs

def search (r : Pattern) (s : List Char) : Bool := searchFrom r true s

/-! ## Literal runs and anchors -/

def lit (c : Char) : Piece := ⟨.chr c, .one⟩

def lits (p : List Char) : Branch := p.map lit

/-- `^p$`. -/
def whole (p : List Char) : Branch := ⟨.bol, .one⟩ :: (lits p ++ [⟨.eol, .one⟩])

/-- `^p.*`. -/
def front (p : List Char) : Branch := ⟨.bol, .one⟩ :: (lits p ++ [⟨.any, .star⟩])

theorem matchHere_lits (b : Branch) : ∀ (p : List Char) (start : Bool) (s : List Char),
    matchHere (lits p ++ b) start s = true ↔
      ∃ t, s = p ++ t ∧ matchHere b (start && p.isEmpty) t = true
  | [], start, s => by simp [lits]
  | c :: p, start, s => by
    simp only [lits, List.map_cons, List.cons_append, lit, matchHere, Atom.once, List.isEmpty_cons,
      Bool.and_false]
    cases s with
    | nil => simp
    | cons d s =>
      simp only [Atom.eats, Bool.and_eq_true, beq_iff_eq, List.cons.injEq]
      have ih := matchHere_lits b p false s
      simp only [lits, Bool.false_and] at ih
      rw [ih]
      constructor
      · rintro ⟨rfl, t, rfl, ht⟩; exact ⟨t, ⟨rfl, rfl⟩, ht⟩
      · rintro ⟨t, ⟨rfl, rfl⟩, ht⟩; exact ⟨rfl, t, rfl, ht⟩

theorem searchFrom_cons (b : Branch) (r : Pattern) : ∀ (start : Bool) (s : List Char),
    searchFrom (b :: r) start s = (searchFrom [b] start s || searchFrom r start s)
  | start, [] => by simp [searchFrom]
  | start, c :: cs => by
    simp only [searchFrom, searchFrom_cons b r false cs, List.any_cons, List.any_nil, Bool.or_false]
    ac_rfl

/-- A pattern finds what one of its alternatives finds. -/
theorem search_cons (b : Branch) (r : Pattern) (s : List Char) :
    search (b :: r) s = (search [b] s || search r s) := searchFrom_cons b r true s

theorem search_nil (s : List Char) : search [] s = false := by
  have h : ∀ (start : Bool) (s : List Char), searchFrom [] start s = false := by
    intro start s
    induction s generalizing start with
    | nil => simp [searchFrom]
    | cons c cs ih => simp [searchFrom, ih]
  exact h true s

theorem search_eq_any (r : Pattern) (s : List Char) : search r s = r.any fun b => search [b] s := by
  induction r with
  | nil => simp [search_nil]
  | cons b r ih => rw [search_cons, ih, List.any_cons]

theorem searchFrom_bol_false (b : Branch) (s : List Char) :
    searchFrom [⟨.bol, .one⟩ :: b] false s = false := by
  induction s with
  | nil => simp [searchFrom, matchHere, Atom.once]
  | cons c cs ih => simp [searchFrom, matchHere, Atom.once, ih]

/-- An alternative that begins with `^` is only tried at the start. -/
theorem search_bol (b : Branch) (s : List Char) :
    search [⟨.bol, .one⟩ :: b] s = matchHere b true s := by
  cases s with
  | nil => simp [search, searchFrom, matchHere, Atom.once]
  | cons c cs => simp [search, searchFrom, matchHere, Atom.once, searchFrom_bol_false]

theorem searchFrom_lits (p : List Char) : ∀ (start : Bool) (s : List Char),
    searchFrom [lits p] start s = true ↔ p <:+: s
  | start, [] => by
    have := matchHere_lits [] p start []
    simp only [List.append_nil] at this
    simp [searchFrom, this, matchHere, List.infix_nil]
  | start, c :: cs => by
    have := matchHere_lits [] p start (c :: cs)
    simp only [List.append_nil, matchHere, and_true] at this
    simp only [searchFrom, List.any_cons, List.any_nil, Bool.or_false, Bool.or_eq_true, this,
      searchFrom_lits p false cs, List.infix_cons_iff]
    rw [List.prefix_iff_exists_append_eq]
    simp only [eq_comm]

/-- **Unanchored literals**: a literal pattern finds exactly the subjects that contain it. -/
theorem search_lits (p s : List Char) : search [lits p] s = true ↔ p <:+: s :=
  searchFrom_lits p true s

theorem atEnd_iff (s : List Char) : atEnd s = true ↔ s = [] ∨ s = ['\n'] := by
  unfold atEnd; split <;> simp_all

/-- **Anchored literals**: `^p$` finds `p` itself, and `p` with one newline after it. -/
theorem search_whole (p s : List Char) :
    search [whole p] s = true ↔ s = p ∨ s = p ++ ['\n'] := by
  rw [whole, search_bol, matchHere_lits]
  simp only [matchHere, Atom.once, Bool.and_eq_true, and_true, atEnd_iff]
  constructor
  · rintro ⟨t, rfl, rfl | rfl⟩ <;> simp
  · rintro (rfl | rfl)
    · exact ⟨[], by simp⟩
    · exact ⟨['\n'], by simp⟩

theorem many_any_true (start : Bool) (s : List Char) :
    Atom.any.many (fun _ _ => true) start s = true := by
  cases s <;> simp [Atom.many]

/-- `^p.*` finds the subjects that begin with `p`. -/
theorem search_front (p s : List Char) : search [front p] s = true ↔ p <+: s := by
  rw [front, search_bol, matchHere_lits, List.prefix_iff_exists_append_eq]
  simp only [matchHere, many_any_true, and_true, eq_comm]

/-! ## Reading pattern text -/

inductive Tok where
  | atom (a : Atom)
  | quant (q : Quant)
  | alt
deriving DecidableEq, Repr

/-- What a character that is not escaped stands for. -/
def token : Char → Option Tok
  | '^' => some (.atom .bol)
  | '$' => some (.atom .eol)
  | '.' => some (.atom .any)
  | '*' => some (.quant .star)
  | '+' => some (.quant .plus)
  | '?' => some (.quant .opt)
  | '|' => some .alt
  | '(' => none
  | ')' => none
  | '[' => none
  | '{' => none
  | '\\' => none
  | c => some (.atom (.chr c))

/-- A backslash makes the next character literal, unless it is a letter or a digit (`\d`, `\b`, `\1`:
outside the fragment). -/
def tokens : List Char → Option (List Tok)
  | [] => some []
  | '\\' :: c :: cs =>
    if c.isAlphanum then none else (tokens cs).map (.atom (.chr c) :: ·)
  | c :: cs => (token c).bind fun t => (tokens cs).map (t :: ·)

/-- The pattern read so far from the right: a quantifier waiting for its atom, and the alternatives. -/
def push : Tok → Option Quant × Pattern → Option (Option Quant × Pattern)
  | .atom a, (q, b :: bs) => some (none, (⟨a, q.getD .one⟩ :: b) :: bs)
  | .atom _, (_, []) => none
  | .quant q, (none, bs) => some (some q, bs)
  | .quant _, (some _, _) => none
  | .alt, (none, bs) => some (none, [] :: bs)
  | .alt, (some _, _) => none

def build : List Tok → Option (Option Quant × Pattern)
  | [] => some (none, [[]])
  | t :: ts => (build ts).bind (push t)

/-- The pattern a text denotes. -/
def parse (text : List Char) : Option Pattern :=
  match (tokens text).bind build with
  | some (none, r) => some r
  | _ => none

/-- A character that stands for itself in a pattern. -/
def plain (c : Char) : Bool := token c == some (.atom (.chr c))

/-- The pattern text `t` stands for the literal characters `p`, whatever follows it. -/
def Reads (t p : List Char) : Prop :=
  ∀ rest, tokens (t ++ rest) = (tokens rest).map ((p.map fun c => .atom (.chr c)) ++ ·)

theorem reads_nil : Reads [] [] := by
  intro rest; simp

theorem Reads.append {t p u q : List Char} (h : Reads t p) (h' : Reads u q) :
    Reads (t ++ u) (p ++ q) := by
  intro rest
  rw [List.append_assoc, h, h', Option.map_map]
  congr 1
  funext ts
  simp

theorem plain_ne_backslash {c : Char} (h : plain c = true) : c ≠ '\\' := by
  rintro rfl; exact absurd h (by decide)

theorem tokens_cons_of_ne {c : Char} (h : c ≠ '\\') (cs : List Char) :
    tokens (c :: cs) = (token c).bind fun t => (tokens cs).map (t :: ·) := by
  rw [tokens.eq_3]
  rintro c' cs' rfl
  exact absurd rfl h

theorem reads_plain {c : Char} (h : plain c = true) : Reads [c] [c] := by
  intro rest
  have ht : token c = some (.atom (.chr c)) := by simpa [plain] using h
  rw [List.singleton_append, tokens_cons_of_ne (plain_ne_backslash h), ht]
  rfl

theorem reads_escaped {c : Char} (h : c.isAlphanum = false) : Reads ['\\', c] [c] := by
  intro rest
  simp [tokens, h]

/-- Text that reads character by character reads as a whole. -/
theorem reads_flatMap (f : Char → List Char) :
    ∀ (p : List Char), (∀ c ∈ p, Reads (f c) [c]) → Reads (p.flatMap f) p
  | [], _ => by simpa using reads_nil
  | c :: p, h => by
    have hc := h c (by simp)
    have hp := reads_flatMap f p fun d hd => h d (by simp [hd])
    simpa using hc.append hp

theorem tokens_reads {t p : List Char} (h : Reads t p) {rest : List Char} {ts : List Tok}
    (hr : tokens rest = some ts) :
    tokens (t ++ rest) = some ((p.map fun c => Tok.atom (.chr c)) ++ ts) := by
  rw [h, hr]; rfl

theorem build_lits {ts : List Tok} {b : Branch} {bs : Pattern} (h : build ts = some (none, b :: bs)) :
    ∀ p : List Char, build ((p.map fun c => Tok.atom (.chr c)) ++ ts) = some (none, (lits p ++ b) :: bs)
  | [] => by simpa [lits] using h
  | c :: p => by
    have ih := build_lits h p
    simp only [List.map_cons, List.cons_append, build, ih, Option.bind_some, push, lits, lit,
      Option.getD_none]

theorem parse_of {text : List Char} {ts : List Tok} {r : Pattern} (ht : tokens text = some ts)
    (hb : build ts = some (none, r)) : parse text = some r := by
  simp [parse, ht, hb]

/-- Text that reads as `p` denotes the literal pattern. -/
theorem parse_reads {t p : List Char} (h : Reads t p) : parse t = some [lits p] := by
  have ht : tokens t = some ((p.map fun c => Tok.atom (.chr c)) ++ []) := by
    simpa using tokens_reads h (show tokens [] = some [] from rfl)
  refine parse_of ht ?_
  simpa using build_lits (show build [] = some (none, [[]]) from rfl) p

/-- The text `^t$`, where `t` reads as `p`. -/
theorem parse_whole {t p : List Char} (h : Reads t p) : parse ('^' :: (t ++ ['$'])) = some [whole p] := by
  have ht : tokens ('^' :: (t ++ ['$'])) =
      some (Tok.atom .bol :: ((p.map fun c => Tok.atom (.chr c)) ++ [Tok.atom .eol])) := by
    rw [tokens_cons_of_ne (by decide), tokens_reads h (show tokens ['$'] = some [Tok.atom .eol] by decide)]; rfl
  refine parse_of ht ?_
  have := build_lits (show build [Tok.atom .eol] = some (none, [[⟨.eol, .one⟩]]) from rfl) p
  simp [build, this, push, whole]

theorem parse_some_build {rest : List Char} {r : Pattern} (h : parse rest = some r) :
    ∃ ts, tokens rest = some ts ∧ build ts = some (none, r) := by
  unfold parse at h
  cases ht : tokens rest with
  | none => simp [ht] at h
  | some ts =>
    simp only [ht, Option.bind_some] at h
    split at h
    · rename_i r' hb; cases h; exact ⟨ts, rfl, hb⟩
    · cases h

/-- The text `^t$|rest`. -/
theorem parse_whole_alt {t p rest : List Char} {r : Pattern} (h : Reads t p) (hr : parse rest = some r) :
    parse ('^' :: (t ++ ('$' :: '|' :: rest))) = some (whole p :: r) := by
  obtain ⟨ts, hts, hb⟩ := parse_some_build hr
  have ht : tokens ('^' :: (t ++ ('$' :: '|' :: rest))) =
      some (Tok.atom .bol :: ((p.map fun c => Tok.atom (.chr c)) ++ (Tok.atom .eol :: Tok.alt :: ts))) := by
    have h2 : tokens ('$' :: '|' :: rest) = some (Tok.atom .eol :: Tok.alt :: ts) := by
      rw [tokens_cons_of_ne (by decide), tokens_cons_of_ne (by decide), hts]; rfl
    rw [tokens_cons_of_ne (by decide), tokens_reads h h2]; rfl
  refine parse_of ht ?_
  have hb2 : build (Tok.atom .eol :: Tok.alt :: ts) = some (none, [⟨.eol, .one⟩] :: r) := by
    simp [build, hb, push]
  simp [build, build_lits hb2 p, push, whole]

/-- The text `^t$|^u$|…` for the texts `t` and `us`. -/
def wholesText (t : List Char) (us : List (List Char)) : List Char :=
  '^' :: (t ++ '$' :: us.flatMap fun u => '|' :: '^' :: (u ++ ['$']))

/-- Anchored alternatives, each a literal. -/
theorem parse_wholes : ∀ {us ps : List (List Char)} {t p : List Char}, Reads t p →
    List.Forall₂ Reads us ps → parse (wholesText t us) = some ((p :: ps).map whole)
  | [], [], t, p, h, _ => by simpa [wholesText] using parse_whole h
  | u :: us, q :: ps, t, p, h, .cons hu hus => by
    have ih := parse_wholes hu hus
    have e : wholesText t (u :: us) = '^' :: (t ++ ('$' :: '|' :: wholesText u us)) := by
      simp [wholesText]
    rw [e, parse_whole_alt h ih]
    rfl

theorem search_wholes (ps : List (List Char)) (s : List Char) :
    search (ps.map whole) s = true ↔ ∃ p ∈ ps, s = p ∨ s = p ++ ['\n'] := by
  rw [search_eq_any]
  simp [List.any_eq_true, search_whole]

/-- The text `^t.*`. -/
theorem parse_front {t p : List Char} (h : Reads t p) :
    parse ('^' :: (t ++ ['.', '*'])) = some [front p] := by
  have ht : tokens ('^' :: (t ++ ['.', '*'])) =
      some (Tok.atom .bol :: ((p.map fun c => Tok.atom (.chr c)) ++ [Tok.atom .any, Tok.quant .star])) := by
    have hstar : tokens ['.', '*'] = some [Tok.atom .any, Tok.quant .star] := by decide
    rw [tokens_cons_of_ne (by decide), tokens_reads h hstar]; rfl
  refine parse_of ht ?_
  have := build_lits
    (show build [Tok.atom .any, Tok.quant .star] = some (none, [[⟨.any, .star⟩]]) from rfl) p
  simp [build, this, push, front]

example : (parse "^a$|^a\\/.*".toList).map (search · "a/b".toList) = some true := by decide

end Regex
