import Mathlib.Data.List.Nodup
import Mathlib.Data.List.Sort
import Mathlib.Data.Rat.Defs
import OrionBroker.Lib.Regex

/-!
# A document store: BSON values, selectors, collections

Values and selectors follow the documented behaviour of MongoDB:

* a dotted path goes through embedded documents, and through every element of an array on the way
  (`Bson.at`); each condition of a selector is tested on its own, so two conditions on one array may be
  met by different elements;
* `$exists: false` holds when the path leads nowhere, in no element; `null` in `$in` also matches a
  missing field;
* a regex condition is an unanchored search; the engine's regular expressions are a parameter, tied to
  `Regex.search` on the fragment that `Regex.parse` reads; the evaluation of `$where` code is a
  parameter;
* a selector with an empty `$or`, or with a regular expression or a function that does not compile, is refused, and a
  function that throws ends the query: the answer is then one document with the field `$err`, and nothing that was
  found (`Collection.answer`). `$where` is evaluated where the other conditions hold, and `$or` from left to right;
* a collection never holds two documents with one key; `update` without `multi` modifies one matching
  document, and any of them may be the one (`pick`).
-/

namespace Mongo

inductive Bson where
  | null
  | bool (b : Bool)
  | int (n : Int)
  | double (q : Rat)
  | str (s : String)
  | oid (s : String)
  | arr (xs : List Bson)
  | obj (fs : List (String × Bson))
deriving Repr

mutual
def Bson.beq : Bson → Bson → Bool
  | .null, .null => true
  | .bool a, .bool b => a == b
  | .int a, .int b => a == b
  | .double a, .double b => a == b
  | .str a, .str b => a == b
  | .oid a, .oid b => a == b
  | .arr xs, .arr ys => Bson.beqList xs ys
  | .obj fs, .obj gs => Bson.beqFields fs gs
  | _, _ => false
def Bson.beqList : List Bson → List Bson → Bool
  | [], [] => true
  | x :: xs, y :: ys => Bson.beq x y && Bson.beqList xs ys
  | _, _ => false
def Bson.beqFields : List (String × Bson) → List (String × Bson) → Bool
  | [], [] => true
  | (f, x) :: xs, (g, y) :: ys => f == g && Bson.beq x y && Bson.beqFields xs ys
  | _, _ => false
end

mutual
theorem Bson.beq_iff : ∀ x y : Bson, x.beq y = true ↔ x = y
  | .null, y => by cases y <;> simp [Bson.beq]
  | .bool _, y => by cases y <;> simp [Bson.beq]
  | .int _, y => by cases y <;> simp [Bson.beq]
  | .double _, y => by cases y <;> simp [Bson.beq]
  | .str _, y => by cases y <;> simp [Bson.beq]
  | .oid _, y => by cases y <;> simp [Bson.beq]
  | .arr xs, y => by cases y <;> simp [Bson.beq, Bson.beqList_iff xs]
  | .obj fs, y => by cases y <;> simp [Bson.beq, Bson.beqFields_iff fs]
theorem Bson.beqList_iff : ∀ xs ys : List Bson, Bson.beqList xs ys = true ↔ xs = ys
  | [], ys => by cases ys <;> simp [Bson.beqList]
  | x :: xs, ys => by cases ys <;> simp [Bson.beqList, Bson.beq_iff x, Bson.beqList_iff xs]
theorem Bson.beqFields_iff : ∀ fs gs : List (String × Bson), Bson.beqFields fs gs = true ↔ fs = gs
  | [], gs => by cases gs <;> simp [Bson.beqFields]
  | (f, x) :: fs, gs => by
    cases gs with
    | nil => simp [Bson.beqFields]
    | cons g gs =>
      obtain ⟨g, y⟩ := g
      simp [Bson.beqFields, Bson.beq_iff x, Bson.beqFields_iff fs]
end

instance : DecidableEq Bson := fun x y => decidable_of_iff (x.beq y = true) (Bson.beq_iff x y)

/-- The field of an embedded document. -/
def Bson.sub (f : String) : Bson → List Bson
  | .obj fs => (fs.lookup f).toList
  | _ => []

/-- One step of a dotted path: into the document, or into each element of an array. -/
def Bson.step (f : String) : Bson → List Bson
  | .arr xs => xs.flatMap (Bson.sub f)
  | v => v.sub f

/-- The values a dotted path leads to. -/
def Bson.at : List String → Bson → List Bson
  | [], v => [v]
  | f :: p, v => (v.step f).flatMap (Bson.at p)

theorem Bson.at_singleton (f : String) (v : Bson) : v.at [f] = v.step f := by
  simp [Bson.at]

/-- A path goes on from where its first part leads. -/
theorem Bson.at_append (q : List String) : ∀ (p : List String) (v : Bson), v.at (p ++ q) = (v.at p).flatMap (Bson.at q)
  | [], v => by simp [Bson.at]
  | f :: p, v => by
    rw [List.cons_append, Bson.at, Bson.at, List.flatMap_assoc]
    exact List.flatMap_congr fun x _ => Bson.at_append q p x

theorem Bson.step_arr (f : String) (xs : List Bson) : (Bson.arr xs).step f = xs.flatMap (Bson.sub f) := rfl

/-- The values a condition is tested on: the value, and the elements of an array. -/
def Bson.leaves : Bson → List Bson
  | .arr xs => .arr xs :: xs
  | v => [v]

/-- An element of `$in`. -/
inductive Alt where
  | null
  | val (v : Bson)
  | regex (text : String)
deriving DecidableEq, Repr

inductive Cond where
  | eq (v : Bson)
  | exists (b : Bool)
  | regex (text : String)
  | gt (n : Int)
  | isIn (alts : List Alt)
  | size (n : Nat)
deriving DecidableEq, Repr

/-- The parts of the database engine that are not modelled: regular expressions outside the fragment,
and the evaluation of `$where` code on a document, which may throw. -/
structure Engine where
  regex : String → String → Bool
  regexCompiles : String → Bool
  js : String → Bson → Option Bool
  jsCompiles : String → Bool
  regex_spec : ∀ text r, Regex.parse text.toList = some r → ∀ s, regex text s = Regex.search r s.toList
  regexCompiles_spec : ∀ text r, Regex.parse text.toList = some r → regexCompiles text = true

/-- The engine that knows the fragment and nothing else; its functions never throw. -/
def Engine.fragment (js : String → Bson → Bool) : Engine where
  regex text s := match Regex.parse text.toList with
    | some r => Regex.search r s.toList
    | none => false
  regexCompiles _ := true
  js code d := some (js code d)
  jsCompiles _ := true
  regex_spec text r h s := by simp only [h]
  regexCompiles_spec _ _ _ := rfl

/-- That engine with these functions, which may throw. -/
def Engine.evaluating (js : String → Bson → Option Bool) : Engine :=
  { Engine.fragment fun _ _ => false with js := js }

def Bson.isStrWith (p : String → Bool) : Bson → Bool
  | .str s => p s
  | _ => false

def Bson.isIntWith (p : Int → Bool) : Bson → Bool
  | .int n => p n
  | _ => false

def Bson.hasSize (n : Nat) : Bson → Bool
  | .arr xs => xs.length == n
  | _ => false

def Alt.holds (E : Engine) (vs : List Bson) : Alt → Bool
  | .null => vs.isEmpty || vs.contains .null
  | .val v => vs.any fun x => x.leaves.contains v
  | .regex t => vs.any fun x => x.leaves.any (Bson.isStrWith (E.regex t))

/-- A condition on the values found at its path. -/
def Cond.holds (E : Engine) (vs : List Bson) : Cond → Bool
  | .eq v => vs.any fun x => x.leaves.contains v
  | .exists b => !vs.isEmpty == b
  | .regex t => vs.any fun x => x.leaves.any (Bson.isStrWith (E.regex t))
  | .gt n => vs.any fun x => x.leaves.any (Bson.isIntWith (n < ·))
  | .isIn alts => alts.any (Alt.holds E vs)
  | .size n => vs.any (Bson.hasSize n)

/-- A selector document. -/
inductive Query where
  | field (path : List String) (c : Cond)
  | all (qs : List Query)
  | any (qs : List Query)
  | js (code : String)

mutual
def Query.matches (E : Engine) (d : Bson) : Query → Bool
  | .field p c => c.holds E (d.at p)
  | .all qs => Query.allMatch E d qs
  | .any qs => Query.anyMatch E d qs
  | .js code => E.js code d == some true
def Query.allMatch (E : Engine) (d : Bson) : List Query → Bool
  | [] => true
  | q :: qs => q.matches E d && Query.allMatch E d qs
def Query.anyMatch (E : Engine) (d : Bson) : List Query → Bool
  | [] => false
  | q :: qs => q.matches E d || Query.anyMatch E d qs
end

attribute [simp] Query.matches Query.allMatch Query.anyMatch

theorem Query.matches_all_iff (E : Engine) (d : Bson) (qs : List Query) :
    (Query.all qs).matches E d = true ↔ ∀ q ∈ qs, q.matches E d = true := by
  rw [Query.matches]
  induction qs with
  | nil => simp
  | cons q qs ih => simp [ih]

theorem Query.matches_any_iff (E : Engine) (d : Bson) (qs : List Query) :
    (Query.any qs).matches E d = true ↔ ∃ q ∈ qs, q.matches E d = true := by
  rw [Query.matches]
  induction qs with
  | nil => simp
  | cons q qs ih => simp [ih]

/-! ## Queries that fail -/

/-- A loop that ends at the first element that passes the test; a test that throws (`none`) ends it too. -/
def anyOf {α : Type} (test : α → Option Bool) : List α → Option Bool
  | [] => some false
  | x :: xs =>
    match test x with
    | none => none
    | some true => some true
    | some false => anyOf test xs

section
variable {α : Type} {test : α → Option Bool}

/-- Where the loop ends. -/
theorem anyOf_eq_iff {r : Option Bool} (hr : r ≠ some false) : ∀ {l : List α},
    anyOf test l = r ↔ ∃ pre x post, l = pre ++ x :: post ∧ test x = r ∧ ∀ y ∈ pre, test y = some false
  | [] => by
    constructor
    · intro h
      exact absurd h.symm hr
    · rintro ⟨pre, x, post, h, -⟩
      simp at h
  | a :: l => by
    have hend : test a = r → ∃ pre x post, a :: l = pre ++ x :: post ∧ test x = r ∧ ∀ y ∈ pre, test y = some false :=
      fun h => ⟨[], a, l, rfl, h, by simp⟩
    have hcons : ∀ {pre x post}, a :: l = pre ++ x :: post → test a ≠ some false →
        (∀ y ∈ pre, test y = some false) → x = a := by
      intro pre x post h ha hpre
      cases pre with
      | nil => exact (List.cons.inj h).1.symm
      | cons b pre =>
        obtain ⟨rfl, -⟩ := List.cons.inj h
        exact absurd (hpre _ (by simp)) ha
    unfold anyOf
    cases ha : test a with
    | none =>
      refine ⟨fun h => hend (ha.trans h), ?_⟩
      rintro ⟨pre, x, post, h, hx, hpre⟩
      rw [← hx, hcons h (by simp [ha]) hpre, ha]
    | some b =>
      cases b with
      | true =>
        refine ⟨fun h => hend (ha.trans h), ?_⟩
        rintro ⟨pre, x, post, h, hx, hpre⟩
        rw [← hx, hcons h (by simp [ha]) hpre, ha]
      | false =>
        dsimp only
        rw [anyOf_eq_iff hr]
        constructor
        · rintro ⟨pre, x, post, rfl, hx, hpre⟩
          exact ⟨a :: pre, x, post, rfl, hx, by simpa [ha] using hpre⟩
        · rintro ⟨pre, x, post, h, hx, hpre⟩
          cases pre with
          | nil =>
            obtain ⟨rfl, -⟩ := List.cons.inj h
            exact absurd (hx.symm.trans ha) hr
          | cons b pre =>
            obtain ⟨rfl, rfl⟩ := List.cons.inj h
            exact ⟨pre, x, post, rfl, hx, fun y hy => hpre y (by simp [hy])⟩

/-- Without a test that throws this is `List.any`. -/
theorem anyOf_of_total {p : α → Bool} : ∀ {l : List α}, (∀ x ∈ l, test x = some (p x)) → anyOf test l = some (l.any p)
  | [], _ => rfl
  | a :: l, h => by
    have ih := @anyOf_of_total p l fun x hx => h x (by simp [hx])
    rw [anyOf, h a (by simp), List.any_cons]
    cases p a with
    | true => rfl
    | false => simpa using ih

theorem anyOf_map {β : Type} (f : β → α) : ∀ l : List β, anyOf test (l.map f) = anyOf (fun x => test (f x)) l
  | [] => rfl
  | x :: l => by rw [List.map_cons, anyOf, anyOf, anyOf_map f l]

end

def Alt.compiles (E : Engine) : Alt → Bool
  | .null => true
  | .val _ => true
  | .regex t => E.regexCompiles t

def Cond.compiles (E : Engine) : Cond → Bool
  | .regex t => E.regexCompiles t
  | .isIn alts => alts.all (Alt.compiles E)
  | _ => true

mutual
/-- The server takes the selector. -/
def Query.compiles (E : Engine) : Query → Bool
  | .field _ c => c.compiles E
  | .all qs => Query.allCompile E qs
  | .any qs => !qs.isEmpty && Query.allCompile E qs
  | .js code => E.jsCompiles code
def Query.allCompile (E : Engine) : List Query → Bool
  | [] => true
  | q :: qs => q.compiles E && Query.allCompile E qs
end

mutual
/-- A function of the selector throws on the document. -/
def Query.throws (E : Engine) (d : Bson) : Query → Bool
  | .field _ _ => false
  | .all qs => Query.allPass E d qs && Query.someThrow E d qs
  | .any qs => Query.anyThrows E d qs
  | .js code => (E.js code d).isNone
/-- Each part holds or throws. -/
def Query.allPass (E : Engine) (d : Bson) : List Query → Bool
  | [] => true
  | q :: qs => (q.matches E d || q.throws E d) && Query.allPass E d qs
def Query.someThrow (E : Engine) (d : Bson) : List Query → Bool
  | [] => false
  | q :: qs => q.throws E d || Query.someThrow E d qs
/-- One part throws and none before it holds. -/
def Query.anyThrows (E : Engine) (d : Bson) : List Query → Bool
  | [] => false
  | q :: qs => q.throws E d || (!q.matches E d && Query.anyThrows E d qs)
end

theorem Query.allCompile_iff (E : Engine) (qs : List Query) :
    Query.allCompile E qs = true ↔ ∀ q ∈ qs, q.compiles E = true := by
  induction qs with
  | nil => simp [Query.allCompile]
  | cons q qs ih => simp [Query.allCompile, ih]

theorem Query.compiles_all_iff (E : Engine) (qs : List Query) :
    (Query.all qs).compiles E = true ↔ ∀ q ∈ qs, q.compiles E = true := by
  rw [Query.compiles, Query.allCompile_iff]

theorem Query.compiles_any_iff (E : Engine) (qs : List Query) :
    (Query.any qs).compiles E = true ↔ qs ≠ [] ∧ ∀ q ∈ qs, q.compiles E = true := by
  rw [Query.compiles, Bool.and_eq_true, Query.allCompile_iff]
  simp

mutual
/-- The selector has a function. -/
def Query.hasJs : Query → Bool
  | .field _ _ => false
  | .all qs => Query.someJs qs
  | .any qs => Query.someJs qs
  | .js _ => true
def Query.someJs : List Query → Bool
  | [] => false
  | q :: qs => q.hasJs || Query.someJs qs
end

mutual
/-- Without a function nothing throws. -/
theorem Query.throws_of_noJs (E : Engine) (d : Bson) : ∀ q : Query, q.hasJs = false → q.throws E d = false
  | .field _ _, _ => rfl
  | .all qs, h => by rw [Query.throws, Query.someThrow_of_noJs E d qs h, Bool.and_false]
  | .any qs, h => Query.anyThrows_of_noJs E d qs h
  | .js _, h => by cases h
theorem Query.someThrow_of_noJs (E : Engine) (d : Bson) : ∀ qs : List Query, Query.someJs qs = false →
    Query.someThrow E d qs = false
  | [], _ => rfl
  | q :: qs, h => by
    rw [Query.someJs, Bool.or_eq_false_iff] at h
    rw [Query.someThrow, Query.throws_of_noJs E d q h.1, Query.someThrow_of_noJs E d qs h.2]
    rfl
theorem Query.anyThrows_of_noJs (E : Engine) (d : Bson) : ∀ qs : List Query, Query.someJs qs = false →
    Query.anyThrows E d qs = false
  | [], _ => rfl
  | q :: qs, h => by
    rw [Query.someJs, Bool.or_eq_false_iff] at h
    rw [Query.anyThrows, Query.throws_of_noJs E d q h.1, Query.anyThrows_of_noJs E d qs h.2]
    simp
end

/-- `skip(offset)` and `limit(limit)` of a cursor; a limit of 0 is none. -/
def page {α : Type} (offset limit : Nat) (found : List α) : List α :=
  if limit = 0 then found.drop offset else (found.drop offset).take limit

/-- The positions a page shows. -/
theorem mem_page_iff {α : Type} {offset limit : Nat} {found : List α} {x : α} :
    x ∈ page offset limit found ↔ ∃ i, found[i]? = some x ∧ offset ≤ i ∧ (limit = 0 ∨ i < offset + limit) := by
  unfold page
  split
  · rename_i h0
    simp only [List.mem_iff_getElem?, List.getElem?_drop, h0, true_or, and_true]
    constructor
    · rintro ⟨i, hi⟩
      exact ⟨offset + i, hi, by omega⟩
    · rintro ⟨i, hi, ho⟩
      refine ⟨i - offset, ?_⟩
      rwa [Nat.add_sub_cancel' ho]
  · rename_i h0
    simp only [List.mem_iff_getElem?, List.getElem?_take, List.getElem?_drop, h0, false_or]
    constructor
    · rintro ⟨i, hi⟩
      split at hi
      · exact ⟨offset + i, hi, by omega, by omega⟩
      · cases hi
    · rintro ⟨i, hi, ho, hl⟩
      refine ⟨i - offset, ?_⟩
      rw [if_pos (by omega), Nat.add_sub_cancel' ho]
      exact hi

/-- **Pages tile**: the pages of one length, one after the other, are the whole list. -/
theorem flatMap_page {α : Type} {limit : Nat} (hl : 0 < limit) : ∀ {n : Nat} {found : List α}, found.length ≤ n * limit →
    (List.range n).flatMap (fun i => page (i * limit) limit found) = found
  | 0, found, h => by
    rw [Nat.zero_mul, Nat.le_zero, List.length_eq_zero_iff] at h
    rw [h]
    rfl
  | n + 1, found, h => by
    have hpage : ∀ (i : Nat) (l : List α), page (i * limit) limit l = (l.drop (i * limit)).take limit := by
      intro i l
      rw [page, if_neg (Nat.pos_iff_ne_zero.1 hl)]
    -- the first page, and the pages of the rest
    have hrest : (List.range n).flatMap (fun i => page ((i + 1) * limit) limit found) = found.drop limit := by
      have hlen : (found.drop limit).length ≤ n * limit := by
        rw [List.length_drop]
        rw [Nat.succ_mul] at h
        omega
      rw [← flatMap_page hl hlen]
      refine List.flatMap_congr fun i _ => ?_
      rw [hpage, hpage, List.drop_drop, Nat.succ_mul, Nat.add_comm]
    rw [List.range_succ_eq_map, List.flatMap_cons, List.flatMap_map, hrest, hpage, Nat.zero_mul, List.drop_zero,
      List.take_append_drop]

/-! ## A sorted cursor -/

section
variable {α κ : Type} [LinearOrder κ] (key : α → κ)

/-- In a list sorted by key an element stands after the smaller ones. -/
theorem countP_lt_of_getElem? : ∀ {l : List α}, l.Pairwise (fun a b => key a < key b) → ∀ {i : Nat} {d : α},
    l[i]? = some d → l.countP (fun x => decide (key x < key d)) = i
  | [], _, _, _, h => by simp at h
  | a :: l, hl, i, d, h => by
    rw [List.pairwise_cons] at hl
    cases i with
    | zero =>
      obtain rfl : a = d := by simpa using h
      rw [List.countP_eq_zero]
      intro b hb
      rcases List.mem_cons.1 hb with rfl | hb
      · simp
      · simpa using (hl.1 b hb).le
    | succ i =>
      rw [List.getElem?_cons_succ] at h
      have hd : key a < key d := hl.1 d (List.mem_of_getElem? h)
      rw [List.countP_cons_of_pos (by simpa using hd), countP_lt_of_getElem? hl.2 h]

variable {key}

theorem insertionSort_lt {l : List α} (hn : (l.map key).Nodup) :
    (l.insertionSort fun a b => key a ≤ key b).Pairwise fun a b => key a < key b := by
  have hp : (l.insertionSort fun a b => key a ≤ key b).Perm l := List.perm_insertionSort _ l
  have hs := List.pairwise_insertionSort (fun a b : α => key a ≤ key b) l
  have hne : (l.insertionSort fun a b => key a ≤ key b).Pairwise fun a b => key a ≠ key b :=
    List.pairwise_map.1 ((hp.map key).nodup_iff.2 hn)
  exact (hs.and hne).imp fun h => lt_of_le_of_ne h.1 h.2

/-- Where a document stands in a cursor sorted by key. -/
theorem getElem?_insertionSort_iff {l : List α} (hn : (l.map key).Nodup) {i : Nat} {d : α} :
    (l.insertionSort fun a b => key a ≤ key b)[i]? = some d ↔
      d ∈ l ∧ i = l.countP fun x => decide (key x < key d) := by
  have hp : (l.insertionSort fun a b => key a ≤ key b).Perm l := List.perm_insertionSort _ l
  constructor
  · intro h
    rw [← hp.countP_eq, countP_lt_of_getElem? key (insertionSort_lt hn) h]
    exact ⟨hp.mem_iff.1 (List.mem_of_getElem? h), rfl⟩
  · rintro ⟨hd, rfl⟩
    obtain ⟨j, hj⟩ := List.mem_iff_getElem?.1 (hp.mem_iff.2 hd)
    rw [← hp.countP_eq, countP_lt_of_getElem? key (insertionSort_lt hn) hj]
    exact hj

/-- A new document is put between the others, which stay in their order. -/
theorem insertionSort_insert {l : List α} {d : α} (hn : ((l ++ [d]).map key).Nodup) :
    ∃ before after, (l.insertionSort fun a b => key a ≤ key b) = before ++ after ∧
      ((l ++ [d]).insertionSort fun a b => key a ≤ key b) = before ++ d :: after := by
  have hp : ((l ++ [d]).insertionSort fun a b => key a ≤ key b).Perm (l ++ [d]) := List.perm_insertionSort _ (l ++ [d])
  have hlt := insertionSort_lt hn
  obtain ⟨before, after, hs⟩ := List.append_of_mem (hp.mem_iff.2 (List.mem_append_right l (List.mem_singleton_self d)))
  refine ⟨before, after, ?_, hs⟩
  rw [hs] at hp hlt
  have hrest : l.Perm (before ++ after) :=
    (List.perm_cons d).1 ((List.perm_append_singleton d l).symm.trans (hp.symm.trans List.perm_middle))
  have hl : (l.map key).Nodup := by
    rw [List.map_append] at hn
    exact hn.of_append_left
  have hsub : (before ++ after).Pairwise fun a b => key a < key b :=
    hlt.sublist (List.Sublist.append_left (List.sublist_cons_self d after) before)
  exact ((List.perm_insertionSort _ l).trans hrest).eq_of_pairwise (fun a b _ _ h h' => absurd h' h.asymm)
    (insertionSort_lt hl) hsub

end

/-! ## Collections -/

/-- Documents with pairwise different keys, in the store's natural order. -/
structure Collection (α κ : Type) (key : α → κ) where
  docs : List α
  nodup : (docs.map key).Nodup

namespace Collection

variable {α κ : Type} {key : α → κ}

def empty : Collection α κ key := ⟨[], by simp⟩

theorem eq_of_key (c : Collection α κ key) {d e : α} (hd : d ∈ c.docs) (he : e ∈ c.docs)
    (h : key d = key e) : d = e := List.inj_on_of_nodup_map c.nodup hd he h

/-- The documents a selector finds. -/
def find (c : Collection α κ key) (p : α → Bool) : List α := c.docs.filter p

theorem mem_find {c : Collection α κ key} {p : α → Bool} {d : α} :
    d ∈ c.find p ↔ d ∈ c.docs ∧ p d = true := List.mem_filter

theorem find_nodup (c : Collection α κ key) (p : α → Bool) : ((c.find p).map key).Nodup :=
  c.nodup.sublist (List.filter_sublist.map key)

/-- The documents a query is answered with; `none` is the error document. -/
def answer (c : Collection α κ key) (E : Engine) (toBson : α → Bson) (q : Query) : Option (List α) :=
  if q.compiles E ∧ ∀ d ∈ c.docs, q.throws E (toBson d) = false then some (c.find fun d => q.matches E (toBson d))
  else none

theorem answer_of_noJs (c : Collection α κ key) {E : Engine} (toBson : α → Bson) {q : Query} (hc : q.compiles E = true)
    (hj : q.hasJs = false) : c.answer E toBson q = some (c.find fun d => q.matches E (toBson d)) := by
  rw [answer, if_pos ⟨hc, fun d _ => q.throws_of_noJs E (toBson d) hj⟩]

theorem answer_isSome_iff {c : Collection α κ key} {E : Engine} {toBson : α → Bson} {q : Query} :
    (c.answer E toBson q).isSome = true ↔ q.compiles E = true ∧ ∀ d ∈ c.docs, q.throws E (toBson d) = false := by
  unfold answer
  split
  · rename_i h
    simpa using h
  · rename_i h
    simpa using h

/-- What is found when an error document counts as nothing. -/
def found (c : Collection α κ key) (E : Engine) (toBson : α → Bson) (q : Query) : List α := (c.answer E toBson q).getD []

theorem mem_found {c : Collection α κ key} {E : Engine} {toBson : α → Bson} {q : Query} {d : α} :
    d ∈ c.found E toBson q ↔ (c.answer E toBson q).isSome = true ∧ d ∈ c.docs ∧ q.matches E (toBson d) = true := by
  unfold found answer
  split
  · simp [mem_find]
  · simp

/-- The document an `update` without `multi` modifies. -/
def target (c : Collection α κ key) (p : α → Bool) (pick : Nat) : Option α :=
  (c.find p)[pick % (c.find p).length]?

theorem target_mem {c : Collection α κ key} {p : α → Bool} {pick : Nat} {d : α}
    (h : c.target p pick = some d) : d ∈ c.docs ∧ p d = true :=
  mem_find.1 (List.mem_of_getElem? h)

/-- Any matching document may be the one that is modified. -/
theorem exists_target {c : Collection α κ key} {p : α → Bool} {d : α} (hd : d ∈ c.docs)
    (hp : p d = true) : ∃ pick, c.target p pick = some d := by
  obtain ⟨i, hi, h⟩ := List.mem_iff_getElem.1 (mem_find.2 ⟨hd, hp⟩)
  refine ⟨i, ?_⟩
  rw [target, Nat.mod_eq_of_lt hi, List.getElem?_eq_getElem hi, h]

theorem target_eq_none {c : Collection α κ key} {p : α → Bool} {pick : Nat} :
    c.target p pick = none ↔ c.find p = [] := by
  rw [target, List.getElem?_eq_none_iff]
  constructor
  · intro h
    by_contra hne
    have := Nat.mod_lt pick (List.length_pos_of_ne_nil hne)
    omega
  · intro h; simp [h]

/-- The documents but one, and that one. -/
theorem perm_others [DecidableEq κ] (c : Collection α κ key) {d : α} (hd : d ∈ c.docs) :
    c.docs.Perm ((c.docs.filter fun x => decide (key x ≠ key d)) ++ [d]) := by
  have hone : (c.docs.filter fun x => !decide (key x ≠ key d)) = [d] := by
    obtain ⟨pre, post, e⟩ := List.append_of_mem hd
    have hn := c.nodup
    rw [e, List.map_append, List.map_cons, List.nodup_middle, List.nodup_cons] at hn
    have hother : ∀ x ∈ pre ++ post, key x ≠ key d := by
      intro x hx hk
      exact hn.1 (hk ▸ List.map_append ▸ List.mem_map_of_mem hx)
    have hpre : (pre.filter fun x => !decide (key x ≠ key d)) = [] :=
      List.filter_eq_nil_iff.2 fun x hx => by simp [hother x (by simp [hx])]
    have hpost : (post.filter fun x => !decide (key x ≠ key d)) = [] :=
      List.filter_eq_nil_iff.2 fun x hx => by simp [hother x (by simp [hx])]
    rw [e, List.filter_append, List.filter_cons, hpre, hpost]
    simp
  rw [← hone]
  exact (List.filter_append_perm _ _).symm

/-- `remove(selector)`. -/
def remove (c : Collection α κ key) (p : α → Bool) : Collection α κ key where
  docs := c.docs.filter fun d => !p d
  nodup := c.nodup.sublist (List.filter_sublist.map key)

theorem remove_forall {c : Collection α κ key} {p : α → Bool} {P : α → Prop} (h : ∀ d ∈ c.docs, P d) :
    ∀ d ∈ (c.remove p).docs, P d := fun d hd => h d (List.mem_of_mem_filter hd)

section
variable [DecidableEq κ]

/-- `f` on the documents with key `k`. -/
def modify (c : Collection α κ key) (k : κ) (f : α → α) (hf : ∀ d, key (f d) = key d) :
    Collection α κ key where
  docs := c.docs.map fun x => if key x = k then f x else x
  nodup := by
    have h : (c.docs.map fun x => if key x = k then f x else x).map key = c.docs.map key := by
      rw [List.map_map]
      apply List.map_congr_left
      intro x _
      by_cases hx : key x = k
      · simp [hx, hf]
      · simp [hx]
    rw [h]; exact c.nodup

/-- `update(selector, f)` without `multi`. -/
def updateOne (c : Collection α κ key) (p : α → Bool) (pick : Nat) (f : α → α)
    (hf : ∀ d, key (f d) = key d) : Collection α κ key :=
  match c.target p pick with
  | none => c
  | some d => c.modify (key d) f hf

/-- `insert`; `none` is the duplicate-key error. -/
def insert (c : Collection α κ key) (d : α) : Option (Collection α κ key) :=
  if h : key d ∈ c.docs.map key then none
  else some ⟨c.docs ++ [d], by
    rw [List.map_append, List.nodup_append]
    exact ⟨c.nodup, by simp, by
      intro a ha b hb e
      simp only [List.map_cons, List.map_nil, List.mem_singleton] at hb
      subst hb; subst e; exact h ha⟩⟩

/-- `update({_id: …}, d, upsert)`. -/
def upsert (c : Collection α κ key) (d : α) : Collection α κ key :=
  if h : key d ∈ c.docs.map key then
    ⟨c.docs.map fun x => if key x = key d then d else x, by
      have e : (c.docs.map fun x => if key x = key d then d else x).map key = c.docs.map key := by
        rw [List.map_map]
        apply List.map_congr_left
        intro x _
        by_cases hx : key x = key d <;> simp [hx]
      rw [e]; exact c.nodup⟩
  else ⟨c.docs ++ [d], by
    rw [List.map_append, List.nodup_append]
    refine ⟨c.nodup, by simp, ?_⟩
    intro a ha b hb e
    rw [List.map_cons, List.map_nil, List.mem_singleton] at hb
    exact h (hb ▸ e ▸ ha)⟩

theorem mem_modify {c : Collection α κ key} {k : κ} {f : α → α} {hf : ∀ d, key (f d) = key d} {x : α} :
    x ∈ (c.modify k f hf).docs ↔
      (x ∈ c.docs ∧ key x ≠ k) ∨ ∃ d ∈ c.docs, key d = k ∧ x = f d := by
  simp only [modify, List.mem_map]
  constructor
  · rintro ⟨d, hd, rfl⟩
    by_cases hk : key d = k
    · right; exact ⟨d, hd, hk, by simp [hk]⟩
    · left; simp [hk, hd]
  · rintro (⟨hx, hk⟩ | ⟨d, hd, hk, rfl⟩)
    · exact ⟨x, hx, by simp [hk]⟩
    · exact ⟨d, hd, by simp [hk]⟩

/-- The documents after a modification: the others, and the modified one. -/
theorem perm_modify {c : Collection α κ key} {d : α} (hd : d ∈ c.docs) {f : α → α} {hf : ∀ d, key (f d) = key d} :
    (c.modify (key d) f hf).docs.Perm ((c.docs.filter fun x => decide (key x ≠ key d)) ++ [f d]) := by
  have hm : f d ∈ (c.modify (key d) f hf).docs := mem_modify.2 (.inr ⟨d, hd, rfl, rfl⟩)
  have h := (c.modify (key d) f hf).perm_others hm
  rw [hf d] at h
  have hothers : ((c.modify (key d) f hf).docs.filter fun x => decide (key x ≠ key d)) =
      c.docs.filter fun x => decide (key x ≠ key d) := by
    show ((c.docs.map fun x => if key x = key d then f x else x).filter fun x => decide (key x ≠ key d)) = _
    generalize c.docs = docs
    induction docs with
    | nil => rfl
    | cons x docs ih =>
      by_cases hx : key x = key d <;> simpa [hx, hf] using ih
  rw [hothers] at h
  exact h

/-- A property of every document survives `update` when it survives `f`. -/
theorem updateOne_forall {c : Collection α κ key} {p : α → Bool} {pick : Nat} {f : α → α}
    {hf : ∀ d, key (f d) = key d} {P : α → Prop} (h : ∀ d ∈ c.docs, P d) (hP : ∀ d ∈ c.docs, P (f d)) :
    ∀ d ∈ (c.updateOne p pick f hf).docs, P d := by
  unfold updateOne
  split
  · exact h
  · intro x hx
    rcases mem_modify.1 hx with ⟨hx, _⟩ | ⟨d, hd, _, rfl⟩
    · exact h x hx
    · exact hP d hd

theorem insert_forall {c c' : Collection α κ key} {d : α} {P : α → Prop} (hi : c.insert d = some c')
    (h : ∀ e ∈ c.docs, P e) (hd : P d) : ∀ e ∈ c'.docs, P e := by
  unfold insert at hi
  split at hi
  · cases hi
  · cases hi
    intro e he
    rcases List.mem_append.1 he with he | he
    · exact h e he
    · rw [List.mem_singleton.1 he]; exact hd

theorem docs_insert {c c' : Collection α κ key} {d : α} (hi : c.insert d = some c') : c'.docs = c.docs ++ [d] := by
  unfold insert at hi
  split at hi
  · cases hi
  · cases hi
    rfl

theorem mem_insert {c c' : Collection α κ key} {d : α} (hi : c.insert d = some c') : d ∈ c'.docs := by
  rw [docs_insert hi]
  simp

/-! ## Looking a document up -/

def lookup (c : Collection α κ key) (k : κ) : Option α := c.docs.find? fun d => decide (key d = k)

theorem lookup_eq_some {c : Collection α κ key} {k : κ} {d : α} : c.lookup k = some d ↔ d ∈ c.docs ∧ key d = k := by
  constructor
  · intro h
    exact ⟨List.mem_of_find?_eq_some h, by simpa using List.find?_some h⟩
  · rintro ⟨hd, rfl⟩
    obtain ⟨e, he⟩ : ∃ e, c.lookup (key d) = some e := by
      rw [← Option.isSome_iff_exists, lookup, List.find?_isSome]
      exact ⟨d, hd, by simp⟩
    have hk : key e = key d := by simpa using List.find?_some he
    rw [he, c.eq_of_key (List.mem_of_find?_eq_some he) hd hk]

theorem mem_upsert {c : Collection α κ key} {d x : α} : x ∈ (c.upsert d).docs ↔ x = d ∨ (x ∈ c.docs ∧ key x ≠ key d) := by
  unfold upsert
  split
  · rename_i h
    obtain ⟨e, he, hk⟩ := List.mem_map.1 h
    simp only [List.mem_map]
    constructor
    · rintro ⟨y, hy, rfl⟩
      by_cases hyk : key y = key d
      · simp [hyk]
      · simp [hyk, hy]
    · rintro (rfl | ⟨hx, hne⟩)
      · exact ⟨e, he, by simp [hk]⟩
      · exact ⟨x, hx, by simp [hne]⟩
  · rename_i h
    rw [List.mem_append, List.mem_singleton, or_comm]
    refine or_congr_right ?_
    constructor
    · exact fun hx => ⟨hx, fun hk => h (hk ▸ List.mem_map_of_mem hx)⟩
    · exact And.left

/-- The upsert of a document that is not there. -/
theorem docs_upsert {c : Collection α κ key} {d : α} (h : c.lookup (key d) = none) : (c.upsert d).docs = c.docs ++ [d] := by
  have hd : key d ∉ c.docs.map key := by
    rintro hd
    obtain ⟨x, hx, hk⟩ := List.mem_map.1 hd
    rw [lookup_eq_some.2 ⟨hx, hk⟩] at h
    cases h
  rw [upsert, dif_neg hd]

/-- An upsert is an update of the map. -/
theorem lookup_upsert (c : Collection α κ key) (d : α) :
    (c.upsert d).lookup = Function.update c.lookup (key d) (some d) := by
  funext k
  refine Option.ext fun x => ?_
  rw [Function.update_apply, lookup_eq_some, mem_upsert]
  by_cases hk : k = key d
  · rw [if_pos hk, hk, Option.some.injEq]
    constructor
    · rintro ⟨rfl | ⟨_, hne⟩, hx⟩
      · rfl
      · exact absurd hx hne
    · rintro rfl
      exact ⟨.inl rfl, rfl⟩
  · rw [if_neg hk, lookup_eq_some]
    constructor
    · rintro ⟨rfl | ⟨hx, _⟩, rfl⟩
      · exact absurd rfl hk
      · exact ⟨hx, rfl⟩
    · rintro ⟨hx, rfl⟩
      exact ⟨.inr ⟨hx, hk⟩, rfl⟩

end

end Collection

end Mongo
