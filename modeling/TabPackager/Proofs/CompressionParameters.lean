import Mathlib.Algebra.Group.Nat.Defs
import Mathlib.Order.MinMax
import Mathlib.Order.Monotone.Basic
import TabPackager.Bundle.Compression

/-!
# Windows and threads of a compressed archive

The window of a compressed archive is the least one of at least 1 KiB that holds the archive,
within the limit that every reader accepts. A second thread is only started where each thread
has a full block of the archive to itself, and no more threads than there are processors.
-/

namespace TabPackager.Bundle

variable {n m w : Nat}

/-- A choice of windows, as powers of two, for archives of every size. -/
structure FittedWindow (window : Nat → Nat) : Prop where
  ten_le : ∀ n, 10 ≤ window n
  le_readerLimit : ∀ n, window n ≤ 27
  holds : ∀ n, n ≤ 2 ^ 27 → n ≤ 2 ^ window n
  least : ∀ n w, n ≤ 2 ^ 27 → 10 ≤ w → n ≤ 2 ^ w → window n ≤ w
  monotone : Monotone window

theorem bitLength_le_iff : bitLength m ≤ w ↔ m < 2 ^ w := by
  unfold bitLength
  split
  · next hm => exact iff_of_true (hm ▸ Nat.zero_le w) (hm ▸ Nat.two_pow_pos w)
  · next hm => exact Nat.log2_lt hm

/-- The digits of the last offset decide which windows hold an archive. -/
theorem bitLength_pred_le_iff : bitLength (max 1 n - 1) ≤ w ↔ n ≤ 2 ^ w := by
  rw [bitLength_le_iff]
  have hw : 1 ≤ 2 ^ w := Nat.one_le_two_pow
  omega

theorem bitLength_mono (h : n ≤ m) : bitLength n ≤ bitLength m :=
  bitLength_le_iff.2 (h.trans_lt (bitLength_le_iff.1 le_rfl))

theorem windowLog_eq (n : Nat) (p : Option Nat) :
    (compressionFor n p).windowLog = max 10 (min 27 (bitLength (max 1 n - 1))) := rfl

theorem fittedWindow_windowLog (p : Option Nat) :
    FittedWindow fun n => (compressionFor n p).windowLog where
  ten_le n := le_max_left _ _
  le_readerLimit n := max_le (by decide) (min_le_left _ _)
  holds n hn := by
    have hfits : bitLength (max 1 n - 1) ≤ 27 := bitLength_pred_le_iff.2 hn
    refine bitLength_pred_le_iff.1 ?_
    rw [windowLog_eq, min_eq_right hfits]
    exact le_max_right _ _
  least n w _ hw hnw := by
    have hfits : bitLength (max 1 n - 1) ≤ w := bitLength_pred_le_iff.2 hnw
    exact max_le hw ((min_le_right _ _).trans hfits)
  monotone n m hnm := by
    have hlen : bitLength (max 1 n - 1) ≤ bitLength (max 1 m - 1) :=
      bitLength_mono (Nat.sub_le_sub_right (max_le_max_left 1 hnm) 1)
    exact max_le_max_left 10 (min_le_min_left 27 hlen)

/-- A number of threads for archives of every size and machines of every kind. A machine that
does not tell how many processors it has counts as one with a single processor. -/
structure FrugalThreads (threads : Nat → Option Nat → Nat) : Prop where
  one_le : ∀ n p, 1 ≤ threads n p
  le_processors : ∀ n p, threads n p ≤ max 1 (p.getD 1)
  full_blocks : ∀ n p, 1 < threads n p → threads n p * (32 * 1024 * 1024) ≤ n
  monotone : ∀ ⦃n m⦄, n ≤ m → ∀ ⦃p q : Option Nat⦄, p.getD 1 ≤ q.getD 1 →
    threads n p ≤ threads m q

/-- The threads that the compressor is asked for, of which it runs at most as many as it can. -/
def requestedThreads (n : Nat) (p : Option Nat) : Nat :=
  min (max 1 (p.getD 1)) (max 1 (n / threadBlock))

theorem threads_eq (n : Nat) (p : Option Nat) :
    (compressionFor n p).threads = min threadLimit (requestedThreads n p) := by
  have hn : max 1 (max 1 n / threadBlock) = max 1 (n / threadBlock) := by
    unfold threadBlock
    omega
  match p with
  | none => simp [compressionFor, requestedThreads, hn]
  | some 0 => simp [compressionFor, requestedThreads, hn]
  | some (k + 1) => simp [compressionFor, requestedThreads, hn]

theorem frugalThreads_requestedThreads : FrugalThreads requestedThreads where
  one_le n p := le_min (le_max_left _ _) (le_max_left _ _)
  le_processors n p := min_le_left _ _
  full_blocks n p h := by
    have hblocks : requestedThreads n p ≤ n / threadBlock := by
      have hle : requestedThreads n p ≤ max 1 (n / threadBlock) := min_le_right _ _
      omega
    calc requestedThreads n p * threadBlock
        ≤ n / threadBlock * threadBlock := Nat.mul_le_mul_right _ hblocks
      _ ≤ n := Nat.div_mul_le_self _ _
  monotone n m hnm p q hpq :=
    min_le_min (max_le_max_left 1 hpq) (max_le_max_left 1 (Nat.div_le_div_right hnm))

theorem FrugalThreads.limited {threads : Nat → Option Nat → Nat} (h : FrugalThreads threads)
    {limit : Nat} (hl : 1 ≤ limit) : FrugalThreads fun n p => min limit (threads n p) where
  one_le n p := le_min hl (h.one_le n p)
  le_processors n p := (min_le_right _ _).trans (h.le_processors n p)
  full_blocks n p hlt := by
    have hle : min limit (threads n p) ≤ threads n p := min_le_right _ _
    exact (Nat.mul_le_mul_right _ hle).trans (h.full_blocks n p (hlt.trans_le hle))
  monotone n m hnm p q hpq := min_le_min_left limit (h.monotone hnm hpq)

theorem frugalThreads_threads : FrugalThreads fun n p => (compressionFor n p).threads := by
  have hlimited := frugalThreads_requestedThreads.limited (by decide : 1 ≤ threadLimit)
  simpa only [threads_eq] using hlimited

/-- The parameters of a compressed archive are safe and tight for every size and every
machine. -/
theorem compressionFor_fitted :
    (∀ p, FittedWindow fun n => (compressionFor n p).windowLog) ∧
      FrugalThreads requestedThreads ∧
      (∀ n p, (compressionFor n p).threads = min threadLimit (requestedThreads n p)) ∧
      FrugalThreads fun n p => (compressionFor n p).threads :=
  ⟨fittedWindow_windowLog, frugalThreads_requestedThreads, threads_eq, frugalThreads_threads⟩

end TabPackager.Bundle
