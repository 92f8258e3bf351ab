import Mathlib.Data.List.Nodup
import Mathlib.Data.List.Range
import OrionBroker.Common.Duration

/-!
# Transaction identifiers (globals.cpp:55-85)

| here | there |
| --- | --- |
| `Transactions`     | `logStartTime` and the static `transaction` |
| `transactionIdSet` | the same (globals.cpp:72) |
| `transactionId`    | the text that `snprintf` prints, in an array of 64 bytes |
| `ids`              | the identifiers of a number of calls |

The running number starts again at 1 after 2^31 - 1 calls, and the start time gets one more microsecond. The
identifier shows milliseconds: the second round has new identifiers only where that microsecond completes one.
-/

namespace OrionBroker

structure Transactions where
  sec : UInt64
  usec : Int
  transaction : Int := 0

def transactionIdSet (t : Transactions) : Transactions :=
  let transaction := toInt32 (t.transaction + 1)
  if transaction < 0 then { t with usec := t.usec + 1, transaction := 1 } else { t with transaction }

/-- `%0<width>d` of a number that is not negative. -/
def zeroPad (width n : Nat) : List Char :=
  List.replicate (width - (Nat.toDigits 10 n).length) '0' ++ Nat.toDigits 10 n

/-- `%0<width>d`; the sign counts. -/
def printInt (width : Nat) (n : Int) : List Char :=
  if n < 0 then '-' :: zeroPad (width - 1) n.natAbs else zeroPad width n.toNat

def transactionId (t : Transactions) : List Char :=
  (Nat.toDigits 10 t.sec.toNat ++ '-' :: printInt 3 ((toInt32 t.usec).tdiv 1000) ++ '-' :: printInt 11 t.transaction).take 63

/-- The identifiers of the next `n` calls. -/
def ids : Nat → Transactions → List (List Char)
  | 0, _ => []
  | n + 1, t => transactionId (transactionIdSet t) :: ids n (transactionIdSet t)

/-! ## The runs -/

/-- The state after `k + 1` calls. -/
def Transactions.after (t : Transactions) (k : Nat) : Transactions :=
  { t with usec := t.usec + (k / 2147483647 : Nat), transaction := (k % 2147483647 : Nat) + 1 }

theorem transactionIdSet_start {t : Transactions} (h : t.transaction = 0) : transactionIdSet t = t.after 0 := by
  simp [transactionIdSet, Transactions.after, h, toInt32]

/-- The running number, at most 2^31 - 1, is counted up or becomes negative. -/
theorem toInt32_next {r : Nat} (h : r < 2147483647) :
    toInt32 ((r : Int) + 1 + 1) = if r + 1 < 2147483647 then (r : Int) + 1 + 1 else -2147483648 := by
  unfold toInt32
  rw [Int.bmod_def]
  split <;> omega

theorem transactionIdSet_after (t : Transactions) (k : Nat) : transactionIdSet (t.after k) = t.after (k + 1) := by
  have hr : k % 2147483647 < 2147483647 := by omega
  simp only [transactionIdSet, Transactions.after, toInt32_next hr]
  by_cases hlast : k % 2147483647 + 1 < 2147483647
  · have hdiv : (k + 1) / 2147483647 = k / 2147483647 := by omega
    have hmod : (k + 1) % 2147483647 = k % 2147483647 + 1 := by omega
    rw [if_pos hlast, if_neg (by omega), hdiv, hmod, Nat.cast_add, Nat.cast_one]
  · have hdiv : (k + 1) / 2147483647 = k / 2147483647 + 1 := by omega
    have hmod : (k + 1) % 2147483647 = 0 := by omega
    rw [if_neg hlast, if_pos (by omega), hdiv, hmod, Nat.cast_add, Nat.cast_one, Int.add_assoc]
    rfl

theorem ids_after (t : Transactions) (n : Nat) : ∀ k, ids n (t.after k) =
    (List.range n).map fun i => transactionId (t.after (k + 1 + i)) := by
  induction n with
  | zero => intro k; rfl
  | succ n ih =>
    intro k
    rw [ids, transactionIdSet_after, ih, List.range_succ_eq_map, List.map_cons, List.map_map]
    congr 1
    apply List.map_congr_left
    intro i _
    rw [Function.comp_apply, Nat.add_assoc (k + 1), Nat.add_comm 1 i]

/-- **The identifiers in closed form.** -/
theorem ids_eq {t : Transactions} (h : t.transaction = 0) (n : Nat) :
    ids n t = (List.range n).map fun k => transactionId (t.after k) := by
  cases n with
  | zero => rfl
  | succ n =>
    rw [ids, transactionIdSet_start h, ids_after, List.range_succ_eq_map, List.map_cons, List.map_map]
    congr 1
    apply List.map_congr_left
    intro i _
    rw [Function.comp_apply, Nat.zero_add, Nat.add_comm]

/-! ## The text -/

theorem length_zeroPad {width n : Nat} (h0 : 0 < width) (h : n < 10 ^ width) : (zeroPad width n).length = width := by
  have := (Nat.length_toDigits_le_iff (by omega) h0).2 h
  simp [zeroPad]
  omega

theorem length_zeroPad_le {width n k : Nat} (h0 : 0 < k) (hwidth : width ≤ k) (h : n < 10 ^ k) :
    (zeroPad width n).length ≤ k := by
  have := (Nat.length_toDigits_le_iff (by omega) h0).2 h
  simp [zeroPad]
  omega

/-- The number can be read back. -/
theorem zeroPad_injective {width m n : Nat} (h : zeroPad width m = zeroPad width n) : m = n := by
  have hread := congrArg (fun cs => Nat.ofDigitChars 10 cs 0) h
  simpa [zeroPad, Nat.ofDigitChars_append, Nat.ofDigitChars_replicate_zero] using hread

/-- Milliseconds and running number of a state in which neither is negative. -/
theorem transactionId_text {t : Transactions} {ms tx : Nat} (hms : (toInt32 t.usec).tdiv 1000 = ms)
    (htx : t.transaction = tx) (hms' : ms < 10 ^ 7) (htx' : tx < 10 ^ 11) :
    transactionId t = Nat.toDigits 10 t.sec.toNat ++ '-' :: zeroPad 3 ms ++ '-' :: zeroPad 11 tx := by
  have hsec : (Nat.toDigits 10 t.sec.toNat).length ≤ 20 :=
    (Nat.length_toDigits_le_iff (by omega) (by omega)).2 (by have := t.sec.toNat_lt; omega)
  have h3 : (zeroPad 3 ms).length ≤ 7 := length_zeroPad_le (by omega) (by omega) hms'
  have h11 : (zeroPad 11 tx).length ≤ 11 := length_zeroPad_le (by omega) (by omega) htx'
  rw [transactionId, hms, htx, printInt, printInt, if_neg (by omega), if_neg (by omega), Int.toNat_natCast,
    Int.toNat_natCast]
  apply List.take_of_length_le
  simp only [List.length_append, List.length_cons]
  omega

theorem text_injective {sec : List Char} {ms ms' tx tx' : Nat} (htx : tx < 10 ^ 11) (htx' : tx' < 10 ^ 11)
    (h : sec ++ '-' :: zeroPad 3 ms ++ '-' :: zeroPad 11 tx = sec ++ '-' :: zeroPad 3 ms' ++ '-' :: zeroPad 11 tx') :
    ms = ms' ∧ tx = tx' := by
  have hlen : ('-' :: zeroPad 11 tx).length = ('-' :: zeroPad 11 tx').length := by
    rw [List.length_cons, List.length_cons, length_zeroPad (by omega) htx, length_zeroPad (by omega) htx']
  obtain ⟨hfront, hback⟩ := List.append_inj' h hlen
  exact ⟨zeroPad_injective (List.cons.inj (List.append_cancel_left hfront)).2,
    zeroPad_injective (List.cons.inj hback).2⟩

/-! ## How long they are different -/

section

variable {t : Transactions} (h0 : 0 ≤ t.usec) (h6 : t.usec < 1000000)
include h0 h6

/-- In the first two rounds, and at the start of the third one. -/
theorem transactionId_after_eq_iff {j k : Nat} (hj : j ≤ 4294967294) (hk : k ≤ 4294967294) :
    transactionId (t.after j) = transactionId (t.after k) ↔
      (t.usec.toNat + j / 2147483647) / 1000 = (t.usec.toNat + k / 2147483647) / 1000 ∧
        j % 2147483647 = k % 2147483647 := by
  have htext : ∀ i ≤ 4294967294, transactionId (t.after i) = Nat.toDigits 10 t.sec.toNat ++
      '-' :: zeroPad 3 ((t.usec.toNat + i / 2147483647) / 1000) ++ '-' :: zeroPad 11 (i % 2147483647 + 1) := by
    intro i hi
    apply transactionId_text (t := t.after i)
    · have hsmall : toInt32 (t.usec + (i / 2147483647 : Nat)) = ((t.usec.toNat + i / 2147483647 : Nat) : Int) := by
        unfold toInt32
        rw [Int.bmod_def]
        omega
      simp only [Transactions.after, hsmall]
      rfl
    · simp [Transactions.after]
    · omega
    · omega
  rw [htext j hj, htext k hk]
  constructor
  · intro h
    obtain ⟨hms, htx⟩ := text_injective (by omega) (by omega) h
    exact ⟨hms, by omega⟩
  · rintro ⟨hms, htx⟩
    rw [hms, htx]

/-- Two calls with one identifier, a round apart. -/
theorem ids_repeat (hstart : t.transaction = 0) {n k : Nat} (hk : k + 2147483647 < n) (hround : k ≤ 2147483647)
    (hms : (t.usec.toNat + k / 2147483647) / 1000 = (t.usec.toNat + (k + 2147483647) / 2147483647) / 1000) :
    ¬ (ids n t).Nodup := by
  rw [ids_eq hstart, List.nodup_map_iff_inj_on List.nodup_range]
  intro hinj
  have hsame := (transactionId_after_eq_iff h0 h6 (j := k) (k := k + 2147483647) (by omega) (by omega)).2
    ⟨hms, by omega⟩
  have := hinj k (List.mem_range.2 (by omega)) (k + 2147483647) (List.mem_range.2 hk) hsame
  omega

end

/-- **The first `n` identifiers are different exactly up to one round, or two when the start time is the last
microsecond of its millisecond.** -/
theorem ids_nodup_iff (t : Transactions) (n : Nat) (hstart : t.transaction = 0) (h0 : 0 ≤ t.usec)
    (h6 : t.usec < 1000000) :
    (ids n t).Nodup ↔ n ≤ if t.usec % 1000 = 999 then 2 * (2 ^ 31 - 1) else 2 ^ 31 - 1 := by
  constructor
  · intro hnodup
    by_contra hn
    split_ifs at hn with h999
    · exact ids_repeat (k := 2147483647) h0 h6 hstart (by omega) (by omega) (by omega) hnodup
    · exact ids_repeat (k := 0) h0 h6 hstart (by omega) (by omega) (by omega) hnodup
  · intro hn
    rw [ids_eq hstart, List.nodup_map_iff_inj_on List.nodup_range]
    intro j hj k hk hsame
    rw [List.mem_range] at hj hk
    split_ifs at hn with h999
    · obtain ⟨hms, htx⟩ := (transactionId_after_eq_iff h0 h6 (by omega) (by omega)).1 hsame
      omega
    · obtain ⟨hms, htx⟩ := (transactionId_after_eq_iff h0 h6 (by omega) (by omega)).1 hsame
      omega

/-- Started on a full second: the calls 1 and 2^31 get the same identifier. -/
theorem ids_not_unique : ¬ (ids (2 ^ 31) { sec := 1420070400, usec := 0 }).Nodup :=
  ids_repeat (k := 0) (by decide) (by decide) rfl (by omega) (by omega) (by decide)

theorem ids_nodup_iff_start :
    ((0 : Int) ≤ 999 ∧ (999 : Int) < 1000000) ∧
    ((ids 7 { sec := 1420070400, usec := 999 }).Nodup ↔ 7 ≤ 2 * (2 ^ 31 - 1)) :=
  ⟨by decide, ids_nodup_iff { sec := 1420070400, usec := 999 } 7 rfl (by decide) (by decide)⟩

end OrionBroker
