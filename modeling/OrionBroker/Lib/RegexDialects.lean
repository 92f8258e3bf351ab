import Mathlib.Data.List.Forall2
import OrionBroker.Lib.Regex

/-!
# Two dialects of regular expressions

| here | meaning |
| --- | --- |
| `parseItems`, `searchItems` | PCRE with lazy (`x*?`) and possessive (`x*+`) quantifiers, over the fragment of `Regex` |
| `parseBasic`, `searchBasic` | the basic syntax of POSIX: `+`, `?` and `\|` are ordinary characters, `.` also takes a newline |

A text of characters that both know (`shared`), valid in the first dialect, is valid in the second. `found_by_both_iff`:
what the first finds the second finds too, exactly when the text has no `+`, `?` or `|`, or the first finds nothing.
-/

namespace Regex

/-! ## Lazy and possessive quantifiers -/

/-- A possessive quantifier does not give back what it took. A lazy one tries the shorter runs first, which does
not change whether there is a match. -/
inductive Greed where
  | greedy
  | lazy
  | possessive
deriving DecidableEq, Repr

structure Item where
  piece : Piece
  greed : Greed := .greedy
deriving DecidableEq, Repr

/-- The longest run of `a`, then `k`. -/
def Atom.longest (a : Atom) (k : Bool → List Char → Bool) : Bool → List Char → Bool
  | start, [] => k start []
  | start, c :: cs => if a.eats c then Atom.longest a k false cs else k start (c :: cs)

def Atom.run (a : Atom) (g : Greed) (k : Bool → List Char → Bool) : Bool → List Char → Bool :=
  match g with
  | .possessive => a.longest k
  | _ => a.many k

/-- One occurrence of `a` if there is one, then `k`. -/
def Atom.taken (a : Atom) (k : Bool → List Char → Bool) : Bool → List Char → Bool
  | start, [] => k start []
  | start, c :: cs => if a.eats c then k false cs else k start (c :: cs)

def matchItems : List Item → Bool → List Char → Bool
  | [], _, _ => true
  | ⟨⟨a, .one⟩, _⟩ :: is, start, s => a.once (matchItems is) start s
  | ⟨⟨a, .star⟩, g⟩ :: is, start, s => a.run g (matchItems is) start s
  | ⟨⟨a, .plus⟩, g⟩ :: is, start, s => a.once (a.run g (matchItems is)) start s
  | ⟨⟨a, .opt⟩, .possessive⟩ :: is, start, s => a.taken (matchItems is) start s
  | ⟨⟨a, .opt⟩, _⟩ :: is, start, s => matchItems is start s || a.once (matchItems is) start s

def searchItemsFrom (r : List (List Item)) : Bool → List Char → Bool
  | start, [] => r.any fun b => matchItems b start []
  | start, c :: cs => (r.any fun b => matchItems b start (c :: cs)) || searchItemsFrom r false cs

def searchItems (r : List (List Item)) (s : List Char) : Bool := searchItemsFrom r true s

/-- From the right: the quantifier waiting for its atom. `?` and `+` behind a quantifier belong to it; any other
quantifier has nothing to repeat. -/
def pushItem : Tok → Option (Quant × Greed) × List (List Item) → Option (Option (Quant × Greed) × List (List Item))
  | .atom a, (none, b :: bs) => some (none, (⟨⟨a, .one⟩, .greedy⟩ :: b) :: bs)
  | .atom a, (some (q, g), b :: bs) => some (none, (⟨⟨a, q⟩, g⟩ :: b) :: bs)
  | .atom _, (_, []) => none
  | .quant q, (none, bs) => some (some (q, .greedy), bs)
  | .quant q, (some (.opt, .greedy), bs) => some (some (q, .lazy), bs)
  | .quant q, (some (.plus, .greedy), bs) => some (some (q, .possessive), bs)
  | .quant _, (some _, _) => none
  | .alt, (none, bs) => some (none, [] :: bs)
  | .alt, (some _, _) => none

def buildItems : List Tok → Option (Option (Quant × Greed) × List (List Item))
  | [] => some (none, [[]])
  | t :: ts => (buildItems ts).bind (pushItem t)

def parseItems (text : List Char) : Option (List (List Item)) :=
  match (tokens text).bind buildItems with
  | some (none, r) => some r
  | _ => none

/-! ## Without them, the fragment of `Regex` -/

def greedyItems (r : Pattern) : List (List Item) := r.map fun b => b.map fun p => ⟨p, .greedy⟩

theorem matchItems_greedy : ∀ (b : Branch) (start : Bool) (s : List Char),
    matchItems (b.map fun p => ⟨p, .greedy⟩) start s = matchHere b start s
  | [], _, _ => by simp [matchItems, matchHere]
  | ⟨a, q⟩ :: ps, start, s => by
    have ih : matchItems (ps.map fun p => ⟨p, .greedy⟩) = matchHere ps := by
      funext start s
      exact matchItems_greedy ps start s
    cases q <;> simp [matchItems, matchHere, Atom.run, ih]

theorem searchItems_greedy (r : Pattern) (s : List Char) : searchItems (greedyItems r) s = search r s := by
  have h : ∀ (start : Bool) (s : List Char), searchItemsFrom (greedyItems r) start s = searchFrom r start s := by
    intro start s
    induction s generalizing start with
    | nil => simp [searchItemsFrom, searchFrom, greedyItems, List.any_map, Function.comp_def, matchItems_greedy]
    | cons c cs ih =>
      simp only [searchItemsFrom, searchFrom, ih]
      simp [greedyItems, List.any_map, Function.comp_def, matchItems_greedy]
  exact h true s

theorem buildItems_greedy : ∀ {ts : List Tok} {q : Option Quant} {r : Pattern}, build ts = some (q, r) →
    buildItems ts = some (q.map fun q => (q, .greedy), greedyItems r)
  | [], q, r, h => by
    cases h
    rfl
  | t :: ts, q, r, h => by
    rw [build] at h
    obtain ⟨⟨q', r'⟩, hb, hp⟩ := Option.bind_eq_some_iff.1 h
    rw [buildItems, buildItems_greedy hb, Option.bind_some]
    cases t with
    | atom a =>
      cases r' with
      | nil => cases hp
      | cons b bs =>
        cases hp
        cases q' <;> rfl
    | quant q =>
      cases q' with
      | none =>
        cases hp
        rfl
      | some q' => cases hp
    | alt =>
      cases q' with
      | none =>
        cases hp
        rfl
      | some q' => cases hp

/-- What the fragment reads, the dialect reads. -/
theorem parseItems_greedy {text : List Char} {r : Pattern} (h : parse text = some r) :
    parseItems text = some (greedyItems r) := by
  obtain ⟨ts, hts, hb⟩ := parse_some_build h
  simp [parseItems, hts, buildItems_greedy hb]

/-! ## The basic syntax -/

/-- `.` is any character of the text. -/
inductive BasicAtom where
  | chr (c : Char)
  | any
deriving DecidableEq, Repr

structure BasicPiece where
  atom : BasicAtom
  starred : Bool
deriving DecidableEq, Repr

def BasicAtom.eats : BasicAtom → Char → Bool
  | .chr a, c => a == c
  | .any, _ => true

def BasicAtom.many (a : BasicAtom) (k : List Char → Bool) : List Char → Bool
  | [] => k []
  | c :: cs => k (c :: cs) || (a.eats c && BasicAtom.many a k cs)

def matchBasic : List BasicPiece → List Char → Bool
  | [], _ => true
  | ⟨a, true⟩ :: ps, s => a.many (matchBasic ps) s
  | ⟨_, false⟩ :: _, [] => false
  | ⟨a, false⟩ :: ps, c :: cs => a.eats c && matchBasic ps cs

def searchBasic (ps : List BasicPiece) : List Char → Bool
  | [] => matchBasic ps []
  | c :: cs => matchBasic ps (c :: cs) || searchBasic ps cs

inductive BasicTok where
  | atom (a : BasicAtom)
  | star
deriving DecidableEq, Repr

/-- Backslashes, brackets and anchors are left out. -/
def basicToken : Char → Option BasicTok
  | '.' => some (.atom .any)
  | '*' => some .star
  | '\\' => none
  | '[' => none
  | '^' => none
  | '$' => none
  | c => some (.atom (.chr c))

/-- From the right: whether a star waits for its atom, and the pieces. Two stars in a row are undefined. -/
def pushBasic : BasicTok → Bool × List BasicPiece → Option (Bool × List BasicPiece)
  | .atom a, (starred, ps) => some (false, ⟨a, starred⟩ :: ps)
  | .star, (false, ps) => some (true, ps)
  | .star, (true, _) => none

def buildBasic : List Char → Option (Bool × List BasicPiece)
  | [] => some (false, [])
  | c :: cs => (basicToken c).bind fun t => (buildBasic cs).bind (pushBasic t)

/-- A star at the start is a character. -/
def parseBasic : List Char → Option (List BasicPiece)
  | '*' :: cs => ((buildBasic cs).bind (pushBasic (.atom (.chr '*')))).map Prod.snd
  | cs =>
    match buildBasic cs with
    | some (false, ps) => some ps
    | _ => none

/-! ## A character the basic syntax asks for -/

theorem BasicAtom.many_mem {a : BasicAtom} {k : List Char → Bool} {q : Char} (hk : ∀ s, k s = true → q ∈ s) :
    ∀ {s : List Char}, a.many k s = true → q ∈ s
  | [], h => hk [] h
  | c :: cs, h => by
    rw [BasicAtom.many, Bool.or_eq_true, Bool.and_eq_true] at h
    rcases h with h | ⟨_, h⟩
    · exact hk _ h
    · exact List.mem_cons_of_mem c (BasicAtom.many_mem hk h)

/-- A character that is not starred is in every match. -/
theorem mem_of_matchBasic {q : Char} : ∀ {ps : List BasicPiece} {s : List Char}, ⟨.chr q, false⟩ ∈ ps →
    matchBasic ps s = true → q ∈ s
  | ⟨a, true⟩ :: ps, s, hq, h => by
    have hq : ⟨.chr q, false⟩ ∈ ps := (List.mem_cons.1 hq).resolve_left (by simp)
    rw [matchBasic] at h
    exact BasicAtom.many_mem (fun s hs => mem_of_matchBasic hq hs) h
  | ⟨a, false⟩ :: ps, [], hq, h => by cases h
  | ⟨a, false⟩ :: ps, c :: cs, hq, h => by
    rw [matchBasic, Bool.and_eq_true] at h
    rcases List.mem_cons.1 hq with he | hq
    · cases he
      have hc : q = c := by simpa [BasicAtom.eats] using h.1
      simp [hc]
    · exact List.mem_cons_of_mem c (mem_of_matchBasic hq h.2)

theorem mem_of_searchBasic {q : Char} {ps : List BasicPiece} (hq : ⟨.chr q, false⟩ ∈ ps) :
    ∀ {s : List Char}, searchBasic ps s = true → q ∈ s
  | [], h => mem_of_matchBasic hq h
  | c :: cs, h => by
    rw [searchBasic, Bool.or_eq_true] at h
    rcases h with h | h
    · exact mem_of_matchBasic hq h
    · exact List.mem_cons_of_mem c (mem_of_searchBasic hq h)

/-! ## Renaming characters that no atom tells apart -/

/-- The atoms of a branch see the same in a character and in its image. -/
def Blind (f : Char → Char) (b : List Item) : Prop :=
  ∀ i ∈ b, ∀ c, i.piece.atom.eats (f c) = i.piece.atom.eats c

section
variable {f : Char → Char} {k : Bool → List Char → Bool} (hk : ∀ start s, k start (s.map f) = k start s)
include hk

theorem Atom.once_map (hf : ∀ c, f c = '\n' ↔ c = '\n') {a : Atom} (ha : ∀ c, a.eats (f c) = a.eats c) (start : Bool)
    (s : List Char) : a.once k start (s.map f) = a.once k start s := by
  have hend : atEnd (s.map f) = atEnd s := by
    rw [Bool.eq_iff_iff, atEnd_iff, atEnd_iff]
    match s with
    | [] => simp
    | [c] => simp [hf]
    | c :: d :: s => simp
  cases a with
  | bol => simp only [Atom.once, hk]
  | eol => simp only [Atom.once, hk, hend]
  | chr x =>
    cases s with
    | nil => rfl
    | cons c cs => simp only [List.map_cons, Atom.once, ha, hk]
  | any =>
    cases s with
    | nil => rfl
    | cons c cs => simp only [List.map_cons, Atom.once, ha, hk]

theorem Atom.many_map {a : Atom} (ha : ∀ c, a.eats (f c) = a.eats c) :
    ∀ (start : Bool) (s : List Char), a.many k start (s.map f) = a.many k start s
  | start, [] => rfl
  | start, c :: cs => by
    have h := hk start (c :: cs)
    rw [List.map_cons] at h ⊢
    rw [Atom.many, Atom.many, h, ha, Atom.many_map ha false cs]

theorem Atom.longest_map {a : Atom} (ha : ∀ c, a.eats (f c) = a.eats c) :
    ∀ (start : Bool) (s : List Char), a.longest k start (s.map f) = a.longest k start s
  | start, [] => rfl
  | start, c :: cs => by
    have h := hk start (c :: cs)
    rw [List.map_cons] at h ⊢
    rw [Atom.longest, Atom.longest, h, ha, Atom.longest_map ha false cs]

theorem Atom.run_map {a : Atom} (ha : ∀ c, a.eats (f c) = a.eats c) (g : Greed) (start : Bool) (s : List Char) :
    a.run g k start (s.map f) = a.run g k start s := by
  cases g with
  | greedy => exact Atom.many_map hk ha start s
  | lazy => exact Atom.many_map hk ha start s
  | possessive => exact Atom.longest_map hk ha start s

theorem Atom.taken_map {a : Atom} (ha : ∀ c, a.eats (f c) = a.eats c) (start : Bool) (s : List Char) :
    a.taken k start (s.map f) = a.taken k start s := by
  cases s with
  | nil => rfl
  | cons c cs =>
    have h := hk start (c :: cs)
    rw [List.map_cons] at h ⊢
    rw [Atom.taken, Atom.taken, h, ha, hk]

end

section
variable {f : Char → Char} (hf : ∀ c, f c = '\n' ↔ c = '\n')
include hf

theorem matchItems_map : ∀ {b : List Item}, Blind f b → ∀ (start : Bool) (s : List Char),
    matchItems b start (s.map f) = matchItems b start s
  | [], _, _, _ => by simp [matchItems]
  | ⟨⟨a, q⟩, g⟩ :: is, hb, start, s => by
    have ha : ∀ c, a.eats (f c) = a.eats c := hb ⟨⟨a, q⟩, g⟩ (by simp)
    have ih := @matchItems_map is fun i hi => hb i (by simp [hi])
    cases q with
    | one =>
      rw [matchItems, matchItems]
      exact Atom.once_map ih hf ha start s
    | star =>
      rw [matchItems, matchItems]
      exact Atom.run_map ih ha g start s
    | plus =>
      rw [matchItems, matchItems]
      exact Atom.once_map (Atom.run_map ih ha g) hf ha start s
    | opt =>
      cases g with
      | possessive =>
        rw [matchItems, matchItems]
        exact Atom.taken_map ih ha start s
      | greedy => rw [matchItems, matchItems, ih, Atom.once_map ih hf ha] <;> simp
      | lazy => rw [matchItems, matchItems, ih, Atom.once_map ih hf ha] <;> simp

theorem searchItems_map {r : List (List Item)} (hr : ∀ b ∈ r, Blind f b) (s : List Char) :
    searchItems r (s.map f) = searchItems r s := by
  have hany : ∀ start s, (r.any fun b => matchItems b start (s.map f)) = r.any fun b => matchItems b start s := by
    intro start s
    rw [Bool.eq_iff_iff, List.any_eq_true, List.any_eq_true]
    exact exists_congr fun b => and_congr_right fun hb => by rw [matchItems_map hf (hr b hb)]
  have h : ∀ start s, searchItemsFrom r start (s.map f) = searchItemsFrom r start s := by
    intro start s
    induction s generalizing start with
    | nil => rfl
    | cons c cs ih =>
      have hc := hany start (c :: cs)
      rw [List.map_cons] at hc ⊢
      rw [searchItemsFrom, searchItemsFrom, hc, ih]
  exact h true s

end

/-! ## Pieces that both dialects read alike -/

/-- The same atom, with or without a star. -/
def Item.Within (i : Item) (p : BasicPiece) : Prop :=
  (i.piece.quant = .one ∧ p.starred = false ∨ i.piece.quant = .star ∧ p.starred = true) ∧
  ((∃ c, i.piece.atom = .chr c ∧ p.atom = .chr c) ∨ (i.piece.atom = .any ∧ p.atom = .any))

theorem Atom.many_of_longest {a : Atom} {k : Bool → List Char → Bool} : ∀ {start : Bool} {s : List Char},
    a.longest k start s = true → a.many k start s = true
  | start, [], h => h
  | start, c :: cs, h => by
    rw [Atom.longest] at h
    rw [Atom.many, Bool.or_eq_true, Bool.and_eq_true]
    by_cases ha : a.eats c = true
    · rw [if_pos ha] at h
      exact .inr ⟨ha, Atom.many_of_longest h⟩
    · rw [if_neg ha] at h
      exact .inl h

theorem Atom.many_of_run {a : Atom} {g : Greed} {k : Bool → List Char → Bool} {start : Bool} {s : List Char}
    (h : a.run g k start s = true) : a.many k start s = true := by
  cases g with
  | greedy => exact h
  | lazy => exact h
  | possessive => exact Atom.many_of_longest h

section
variable {a : Atom} {a' : BasicAtom} {k : Bool → List Char → Bool} {k' : List Char → Bool}
  (hk : ∀ start s, k start s = true → k' s = true) (ha : ∀ c, a.eats c = true → a'.eats c = true)
include hk ha

theorem Atom.many_within : ∀ {start : Bool} {s : List Char}, a.many k start s = true → a'.many k' s = true
  | start, [], h => hk start [] h
  | start, c :: cs, h => by
    rw [Atom.many, Bool.or_eq_true, Bool.and_eq_true] at h
    rw [BasicAtom.many, Bool.or_eq_true, Bool.and_eq_true]
    rcases h with h | ⟨hc, h⟩
    · exact .inl (hk start _ h)
    · exact .inr ⟨ha c hc, Atom.many_within h⟩

end

theorem Item.Within.eats {i : Item} {p : BasicPiece} (h : i.Within p) (c : Char) (hc : i.piece.atom.eats c = true) :
    p.atom.eats c = true := by
  rcases h.2 with ⟨x, hi, hp⟩ | ⟨_, hp⟩
  · rw [hi] at hc
    rw [hp]
    exact hc
  · rw [hp]
    rfl

/-- An atom that is no anchor takes one character. -/
theorem Item.Within.once {i : Item} {p : BasicPiece} (h : i.Within p) {k : Bool → List Char → Bool} {start : Bool}
    {s : List Char} (hs : i.piece.atom.once k start s = true) :
    ∃ c cs, s = c :: cs ∧ i.piece.atom.eats c = true ∧ k false cs = true := by
  have hno : ∀ s, i.piece.atom.once k start s = (match s with
      | [] => false
      | c :: cs => i.piece.atom.eats c && k false cs) := by
    rcases h.2 with ⟨x, hi, _⟩ | ⟨hi, _⟩ <;> rw [hi] <;> exact fun s => rfl
  rw [hno] at hs
  cases s with
  | nil => cases hs
  | cons c cs => exact ⟨c, cs, rfl, (Bool.and_eq_true _ _ ▸ hs)⟩

theorem matchBasic_of_matchItems : ∀ {is : List Item} {ps : List BasicPiece}, List.Forall₂ Item.Within is ps →
    ∀ {start : Bool} {s : List Char}, matchItems is start s = true → matchBasic ps s = true
  | [], [], _, _, _, _ => by simp [matchBasic]
  | ⟨⟨a, q⟩, g⟩ :: is, ⟨a', starred⟩ :: ps, .cons h hs, start, s, hm => by
    have ih : ∀ start s, matchItems is start s = true → matchBasic ps s = true :=
      fun start s => matchBasic_of_matchItems hs
    rcases h.1 with ⟨hq, hst⟩ | ⟨hq, hst⟩
    · cases hq
      cases hst
      rw [matchItems] at hm
      obtain ⟨c, cs, rfl, hc, hm⟩ := h.once hm
      rw [matchBasic, Bool.and_eq_true]
      exact ⟨h.eats c hc, ih false cs hm⟩
    · cases hq
      cases hst
      rw [matchItems] at hm
      rw [matchBasic]
      exact Atom.many_within ih h.eats (Atom.many_of_run hm)

theorem searchBasic_of_searchItems {is : List Item} {ps : List BasicPiece} (h : List.Forall₂ Item.Within is ps) :
    ∀ {start : Bool} {s : List Char}, searchItemsFrom [is] start s = true → searchBasic ps s = true
  | start, [], hs => by
    simp only [searchItemsFrom, List.any_cons, List.any_nil, Bool.or_false] at hs
    exact matchBasic_of_matchItems h hs
  | start, c :: cs, hs => by
    simp only [searchItemsFrom, List.any_cons, List.any_nil, Bool.or_false, Bool.or_eq_true] at hs
    rw [searchBasic, Bool.or_eq_true]
    rcases hs with hs | hs
    · exact .inl (matchBasic_of_matchItems h hs)
    · exact .inr (searchBasic_of_searchItems h hs)

/-! ## Texts of characters that both know -/

/-- An operator of the first dialect alone. -/
def operator (c : Char) : Bool := c == '+' || c == '?' || c == '|'

def shared (c : Char) : Bool := !(['^', '$', '(', ')', '[', '{', '\\'].contains c)

theorem shared_cases {c : Char} (h : shared c = true) :
    c = '.' ∨ c = '*' ∨ c = '+' ∨ c = '?' ∨ c = '|' ∨
      (operator c = false ∧ token c = some (.atom (.chr c)) ∧ basicToken c = some (.atom (.chr c))) := by
  by_cases h1 : c = '.'
  · exact .inl h1
  by_cases h2 : c = '*'
  · exact .inr (.inl h2)
  by_cases h3 : c = '+'
  · exact .inr (.inr (.inl h3))
  by_cases h4 : c = '?'
  · exact .inr (.inr (.inr (.inl h4)))
  by_cases h5 : c = '|'
  · exact .inr (.inr (.inr (.inr (.inl h5))))
  refine .inr (.inr (.inr (.inr (.inr ⟨by simp [operator, h3, h4, h5], ?_, ?_⟩))))
  · unfold token
    split <;> first | rfl | contradiction
  · unfold basicToken
    split <;> first | rfl | contradiction

section
variable {pend pend' : Option (Quant × Greed)} {r r' : List (List Item)}

theorem pushItem_atom {a : Atom} (h : pushItem (.atom a) (pend', r') = some (pend, r)) :
    pend = none ∧ ∃ b bs, r' = b :: bs ∧
      r = (⟨⟨a, (pend'.map Prod.fst).getD .one⟩, (pend'.map Prod.snd).getD .greedy⟩ :: b) :: bs := by
  cases r' with
  | nil => cases pend' <;> cases h
  | cons b bs =>
    cases pend' <;> cases h
    · exact ⟨rfl, b, bs, rfl, rfl⟩
    · exact ⟨rfl, b, bs, rfl, rfl⟩

theorem pushItem_quant {q : Quant} (h : pushItem (.quant q) (pend', r') = some (pend, r)) :
    r = r' ∧ (∃ g, pend = some (q, g) ∧ (pend' = none → g = .greedy)) ∧ ∀ g, pend' ≠ some (.star, g) := by
  cases pend' with
  | none =>
    cases h
    exact ⟨rfl, ⟨.greedy, rfl, fun _ => rfl⟩, by simp⟩
  | some p =>
    -- only a greedy `?` or `+` may stand behind
    obtain ⟨q', g⟩ := p
    cases q' <;> cases g <;> cases h
    · exact ⟨rfl, ⟨.possessive, rfl, by simp⟩, by simp⟩
    · exact ⟨rfl, ⟨.lazy, rfl, by simp⟩, by simp⟩

theorem pushItem_alt (h : pushItem .alt (pend', r') = some (pend, r)) :
    pend = none ∧ pend' = none ∧ r = [] :: r' := by
  cases pend' with
  | none =>
    cases h
    exact ⟨rfl, rfl, rfl⟩
  | some q => cases h

end

/-- What the two readings of a text have in common. -/
structure Built (text : List Char) (pend : Option (Quant × Greed)) (r : List (List Item)) (starred : Bool)
    (ps : List BasicPiece) : Prop where
  starred : starred = true ↔ ∃ g, pend = some (.star, g)
  operators : ∀ q ∈ text, operator q = true → ⟨.chr q, false⟩ ∈ ps
  plain : (∀ c ∈ text, operator c = false) →
    (pend = none ∨ pend = some (.star, .greedy)) ∧ ∃ b, r = [b] ∧ List.Forall₂ Item.Within b ps
  atoms : ∀ b ∈ r, ∀ i ∈ b, i.piece.atom = .any ∨ ∃ c ∈ text, operator c = false ∧ i.piece.atom = .chr c

section
variable {text : List Char} {pend pend' : Option (Quant × Greed)} {r r' : List (List Item)} {starred : Bool}
  {ps : List BasicPiece} {c : Char} (h : Built text pend' r' starred ps)
include h

/-- An atom of both dialects. -/
theorem Built.atom (hc : operator c = false) {a : Atom} {a' : BasicAtom}
    (haa : a = .chr c ∧ a' = .chr c ∨ a = .any ∧ a' = .any) (hp : pushItem (.atom a) (pend', r') = some (pend, r)) :
    Built (c :: text) pend r false (⟨a', starred⟩ :: ps) := by
  obtain ⟨rfl, b, bs, rfl, rfl⟩ := pushItem_atom hp
  refine ⟨by simp, ?_, ?_, ?_⟩
  · intro q hq hop
    rcases List.mem_cons.1 hq with rfl | hq
    · rw [hc] at hop
      cases hop
    · exact List.mem_cons_of_mem _ (h.operators q hq hop)
  · intro hno
    obtain ⟨hpend, b', hb, hw⟩ := h.plain fun d hd => hno d (by simp [hd])
    cases hb
    refine ⟨.inl rfl, _, rfl, .cons ⟨?_, ?_⟩ hw⟩
    · rcases hpend with rfl | rfl
      · exact .inl ⟨rfl, by simpa using h.starred⟩
      · exact .inr ⟨rfl, by simpa using h.starred⟩
    · rcases haa with ⟨rfl, rfl⟩ | ⟨rfl, rfl⟩
      · exact .inl ⟨c, rfl, rfl⟩
      · exact .inr ⟨rfl, rfl⟩
  · intro b' hb' i hi
    rcases List.mem_cons.1 hb' with rfl | hb'
    · rcases List.mem_cons.1 hi with rfl | hi
      · rcases haa with ⟨rfl, _⟩ | ⟨rfl, _⟩
        · exact .inr ⟨c, by simp, hc, rfl⟩
        · exact .inl rfl
      · exact (h.atoms b (by simp) i hi).imp id fun ⟨d, hd, hop⟩ => ⟨d, by simp [hd], hop⟩
    · exact (h.atoms b' (by simp [hb']) i hi).imp id fun ⟨d, hd, hop⟩ => ⟨d, by simp [hd], hop⟩

theorem Built.atoms_cons (c : Char) : ∀ b ∈ r', ∀ i ∈ b,
    i.piece.atom = .any ∨ ∃ d ∈ c :: text, operator d = false ∧ i.piece.atom = .chr d := by
  intro b hb i hi
  exact (h.atoms b hb i hi).imp id fun ⟨d, hd, hop⟩ => ⟨d, by simp [hd], hop⟩

/-- A star, where no star waits. -/
theorem Built.star (hp : pushItem (.quant .star) (pend', r') = some (pend, r)) :
    starred = false ∧ Built ('*' :: text) pend r true ps := by
  obtain ⟨rfl, ⟨g, rfl, hg⟩, hno⟩ := pushItem_quant hp
  have hst : starred = false := by
    rw [← Bool.not_eq_true, h.starred]
    rintro ⟨g, hg⟩
    exact hno g hg
  refine ⟨hst, ⟨by simp, ?_, ?_, h.atoms_cons '*'⟩⟩
  · intro q hq hop
    rcases List.mem_cons.1 hq with rfl | hq
    · exact absurd hop (by decide)
    · exact h.operators q hq hop
  · intro hops
    obtain ⟨hpend, hb⟩ := h.plain fun d hd => hops d (by simp [hd])
    have hnone : pend' = none := hpend.resolve_right (hno _)
    rw [hg hnone]
    exact ⟨.inr rfl, hb⟩

/-- An operator of the first dialect is a character of the second, without a star. -/
theorem Built.ordinary (hc : operator c = true) (hst : starred = false) (hpend : ∀ g, pend ≠ some (.star, g))
    (hr : r = r' ∨ r = [] :: r') : Built (c :: text) pend r false (⟨.chr c, starred⟩ :: ps) := by
  refine ⟨by simp [hpend], ?_, ?_, ?_⟩
  · intro q hq hop
    rcases List.mem_cons.1 hq with rfl | hq
    · simp [hst]
    · exact List.mem_cons_of_mem _ (h.operators q hq hop)
  · intro hno
    have := hno c (by simp)
    rw [hc] at this
    cases this
  · rcases hr with rfl | rfl
    · exact h.atoms_cons c
    · intro b hb i hi
      rcases List.mem_cons.1 hb with rfl | hb
      · cases hi
      · exact h.atoms_cons c b hb i hi

end

theorem shared_ne_backslash {c : Char} (h : shared c = true) : c ≠ '\\' := by
  rintro rfl
  exact absurd h (by decide)

/-- **Both readings of a text**, character by character from the right. -/
theorem built_of_tokens : ∀ {text : List Char}, (∀ c ∈ text, shared c = true) → ∀ {ts : List Tok}
    {pend : Option (Quant × Greed)} {r : List (List Item)}, tokens text = some ts → buildItems ts = some (pend, r) →
    ∃ starred ps, buildBasic text = some (starred, ps) ∧ Built text pend r starred ps
  | [], _, ts, pend, r, ht, hb => by
    cases ht
    cases hb
    exact ⟨false, [], rfl, ⟨by simp, by simp, fun _ => ⟨.inl rfl, [], rfl, .nil⟩, by simp⟩⟩
  | c :: cs, hs, ts, pend, r, ht, hb => by
    rw [tokens_cons_of_ne (shared_ne_backslash (hs c (by simp)))] at ht
    obtain ⟨t, htok, ht⟩ := Option.bind_eq_some_iff.1 ht
    obtain ⟨ts, hts, rfl⟩ := Option.map_eq_some_iff.1 ht
    rw [buildItems] at hb
    obtain ⟨⟨pend', r'⟩, hb', hp⟩ := Option.bind_eq_some_iff.1 hb
    obtain ⟨starred, ps, hbasic, hbuilt⟩ := built_of_tokens (fun d hd => hs d (by simp [hd])) hts hb'
    have hstar : (∀ g, pend' ≠ some (.star, g)) → starred = false := by
      intro hno
      rw [← Bool.not_eq_true, hbuilt.starred]
      rintro ⟨g, hg⟩
      exact hno g hg
    rw [buildBasic, hbasic]
    rcases shared_cases (hs c (by simp)) with rfl | rfl | rfl | rfl | rfl | ⟨hop, htc, hbc⟩
    · cases htok
      exact ⟨false, _, rfl, hbuilt.atom (by decide) (.inr ⟨rfl, rfl⟩) hp⟩
    · cases htok
      obtain ⟨rfl, hbuilt'⟩ := hbuilt.star hp
      exact ⟨true, _, rfl, hbuilt'⟩
    · cases htok
      obtain ⟨hr, ⟨g, rfl, _⟩, hno⟩ := pushItem_quant hp
      exact ⟨false, _, rfl, hbuilt.ordinary (by decide) (hstar hno) (by simp) (.inl hr)⟩
    · cases htok
      obtain ⟨hr, ⟨g, rfl, _⟩, hno⟩ := pushItem_quant hp
      exact ⟨false, _, rfl, hbuilt.ordinary (by decide) (hstar hno) (by simp) (.inl hr)⟩
    · cases htok
      obtain ⟨rfl, rfl, hr⟩ := pushItem_alt hp
      exact ⟨false, _, rfl, hbuilt.ordinary (by decide) (hstar (by simp)) (by simp) (.inr hr)⟩
    · rw [htc] at htok
      cases htok
      rw [hbc]
      exact ⟨false, _, rfl, hbuilt.atom hop (.inl ⟨rfl, rfl⟩) hp⟩

/-- A text that is valid in the first dialect is valid in the second. -/
theorem parseBasic_of_items {text : List Char} (hs : ∀ c ∈ text, shared c = true) {r : List (List Item)}
    (hr : parseItems text = some r) : ∃ ps, parseBasic text = some ps ∧ Built text none r false ps := by
  obtain ⟨ts, hts, hb⟩ : ∃ ts, tokens text = some ts ∧ buildItems ts = some (none, r) := by
    unfold parseItems at hr
    split at hr
    · rename_i r' he
      cases hr
      exact Option.bind_eq_some_iff.1 he
    · cases hr
  obtain ⟨starred, ps, hbasic, hbuilt⟩ := built_of_tokens hs hts hb
  have hst : starred = false := by
    rw [← Bool.not_eq_true, hbuilt.starred]
    rintro ⟨g, hg⟩
    cases hg
  subst hst
  refine ⟨ps, ?_, hbuilt⟩
  -- a star at the start would still be waiting
  have hhead : ∀ cs, text = '*' :: cs → False := by
    rintro cs rfl
    rw [buildBasic] at hbasic
    obtain ⟨⟨st, ps'⟩, _, hpush⟩ := Option.bind_eq_some_iff.1 (show (buildBasic cs).bind (pushBasic .star) = _ from hbasic)
    cases st <;> cases hpush
  rw [parseBasic.eq_2 _ hhead, hbasic]

/-! ## What the first finds and the second misses -/

/-- `d` for every operator. -/
def blank (d c : Char) : Char := if operator c then d else c

theorem blank_newline {d : Char} (hd : d ≠ '\n') (c : Char) : blank d c = '\n' ↔ c = '\n' := by
  unfold blank
  by_cases h : operator c = true
  · rw [if_pos h]
    refine ⟨fun he => absurd he hd, ?_⟩
    rintro rfl
    exact absurd h (by decide)
  · rw [if_neg h]

theorem Built.blind {text : List Char} {pend : Option (Quant × Greed)} {r : List (List Item)} {starred : Bool}
    {ps : List BasicPiece} (h : Built text pend r starred ps) {d : Char} (hd : d ∉ text) (hnl : d ≠ '\n') :
    ∀ b ∈ r, Blind (blank d) b := by
  intro b hb i hi c
  rcases h.atoms b hb i hi with ha | ⟨x, hx, hop, ha⟩
  · have hn := blank_newline hnl c
    rw [ha, Bool.eq_iff_iff]
    simp [Atom.eats, hn]
  · rw [ha, Bool.eq_iff_iff]
    simp only [Atom.eats, beq_iff_eq]
    unfold blank
    by_cases hc : operator c = true
    · rw [if_pos hc]
      constructor
      · rintro rfl
        exact absurd hx hd
      · rintro rfl
        rw [hop] at hc
        cases hc
    · rw [if_neg hc]

/-- **The two dialects.** All that the first finds the second finds, exactly when the text has no operator of the
first, or the first finds nothing. -/
theorem found_by_both_iff {text : List Char} (hs : ∀ c ∈ text, shared c = true) {r : List (List Item)}
    (hr : parseItems text = some r) {ps : List BasicPiece} (hps : parseBasic text = some ps)
    {d : Char} (hd : d ∉ text) (hnl : d ≠ '\n') (hop : operator d = false) :
    (∀ s, searchItems r s = true → searchBasic ps s = true) ↔
      (∀ c ∈ text, operator c = false) ∨ ∀ s, searchItems r s = false := by
  obtain ⟨ps', hps', hbuilt⟩ := parseBasic_of_items hs hr
  rw [hps] at hps'
  cases hps'
  constructor
  · intro h
    by_contra hno
    rw [not_or] at hno
    obtain ⟨hq, hfound⟩ := hno
    simp only [not_forall, Bool.not_eq_false] at hq hfound
    obtain ⟨q, hmem, hq⟩ := hq
    obtain ⟨s, hfound⟩ := hfound
    -- without its operators the subject is still found, but `q` is gone
    have hblank := searchItems_map (blank_newline hnl) (hbuilt.blind hd hnl) s
    have hin := mem_of_searchBasic (hbuilt.operators q hmem hq) (h _ (hblank.trans hfound))
    obtain ⟨c, _, hc⟩ := List.mem_map.1 hin
    unfold blank at hc
    split at hc
    · rw [← hc, hop] at hq
      cases hq
    · rename_i hcop
      rw [hc] at hcop
      exact hcop hq
  · rintro (hplain | hnone) s hfound
    · obtain ⟨_, b, rfl, hw⟩ := hbuilt.plain hplain
      exact searchBasic_of_searchItems hw hfound
    · rw [hnone s] at hfound
      cases hfound

end Regex
