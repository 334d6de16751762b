import Mathlib

/-! A sequence of rows cut by position: into blocks of one size, and into parts of another whose
rows stay grouped by block. -/
namespace RowGroups
variable {α : Type}

/-- Blocks of one size, the last one possibly smaller. -/
def blocks (size : Nat) (rows : List α) : List (List α) :=
  if rows = [] ∨ size = 0 then [] else rows.take size :: blocks size (rows.drop size)
termination_by rows.length
decreasing_by
  next h =>
    have hpos := List.length_pos_of_ne_nil (not_or.mp h).1
    rw [List.length_drop]
    omega

/-- Blocks put together are the rows. -/
theorem flatten_blocks {size : Nat} (hsize : 0 < size) (rows : List α) :
    (blocks size rows).flatten = rows := by
  induction rows using blocks.induct size with
  | case1 rows h =>
    rw [blocks, if_pos h, List.flatten_nil, h.resolve_right hsize.ne']
  | case2 rows h ih =>
    rw [blocks, if_neg h, List.flatten_cons, ih, List.take_append_drop]

/-- Rows that fit into one block. -/
theorem blocks_of_length_le {size : Nat} {rows : List α} (hne : rows ≠ [])
    (h : rows.length ≤ size) : blocks size rows = [rows] := by
  have hpos := List.length_pos_of_ne_nil hne
  have hsize : ¬ (rows = [] ∨ size = 0) := not_or.mpr ⟨hne, by omega⟩
  rw [blocks, if_neg hsize, List.take_of_length_le h, List.drop_of_length_le h, blocks,
    if_pos (.inl rfl)]

theorem length_of_mem_blocks {size : Nat} {rows block : List α} (h : block ∈ blocks size rows) :
    1 ≤ block.length ∧ block.length ≤ size := by
  induction rows using blocks.induct size with
  | case1 rows hnone =>
    rw [blocks, if_pos hnone] at h
    cases h
  | case2 rows hsome ih =>
    rw [blocks, if_neg hsome] at h
    cases List.mem_cons.mp h with
    | inl heq =>
      obtain ⟨hne, hsize⟩ := not_or.mp hsome
      have hpos := List.length_pos_of_ne_nil hne
      rw [heq, List.length_take]
      omega
    | inr hrest => exact ih hrest

/-- Only the last block may be smaller. -/
theorem length_of_mem_dropLast_blocks {size : Nat} {rows block : List α}
    (h : block ∈ (blocks size rows).dropLast) : block.length = size := by
  induction rows using blocks.induct size with
  | case1 rows hnone =>
    rw [blocks, if_pos hnone] at h
    cases h
  | case2 rows hsome ih =>
    rw [blocks, if_neg hsome] at h
    by_cases hlast : blocks size (rows.drop size) = []
    · rw [hlast] at h
      cases h
    · rw [List.dropLast_cons_of_ne_nil hlast] at h
      cases List.mem_cons.mp h with
      | inl heq =>
        have hdrop : rows.drop size ≠ [] := by
          intro hnil
          rw [hnil, blocks, if_pos (.inl rfl)] at hlast
          exact hlast rfl
        have hlt := List.length_pos_of_ne_nil hdrop
        rw [List.length_drop] at hlt
        rw [heq, List.length_take]
        omega
      | inr hrest => exact ih hrest

/-- The rows of a part, with their positions. -/
def partRows (partSize part : Nat) (rows : List α) : List (α × Nat) :=
  rows.zipIdx.filter fun row => row.2 / partSize = part

/-- The rows of a part, those of one block together. -/
def rowGroups (blockSize partSize part : Nat) (rows : List α) : List (List α) :=
  ((partRows partSize part rows).splitBy fun row next => row.2 / blockSize == next.2 / blockSize).map
    (·.map (·.1))

/-- How many parts there are; no rows make one part. -/
def partCount (partSize rowCount : Nat) : Nat := (rowCount - 1) / partSize + 1

section Append
variable {blockSize partSize part : Nat} {xs ys : List α}

/-- Rows behind a complete part leave it as it is. -/
theorem partRows_append_of_full (hsize : 0 < partSize) (h : (part + 1) * partSize ≤ xs.length) :
    partRows partSize part (xs ++ ys) = partRows partSize part xs := by
  have hbehind : (ys.zipIdx (0 + xs.length)).filter (fun row => row.2 / partSize = part) = [] := by
    rw [List.filter_eq_nil_iff]
    intro row hrow
    have hle := List.le_snd_of_mem_zipIdx hrow
    have hpart : part + 1 ≤ row.2 / partSize := (Nat.le_div_iff_mul_le hsize).mpr (by omega)
    simp only [decide_eq_true_eq]
    omega
  rw [partRows, partRows, List.zipIdx_append, List.filter_append, hbehind, List.append_nil]

/-- Rows that fit into the part behind the last full one belong to it. -/
theorem partRows_append (hfits : xs.length % partSize + ys.length ≤ partSize) :
    partRows partSize (xs.length / partSize) (xs ++ ys) =
      partRows partSize (xs.length / partSize) xs ++ ys.zipIdx xs.length := by
  have hall : (ys.zipIdx (0 + xs.length)).filter
      (fun row => row.2 / partSize = xs.length / partSize) = ys.zipIdx xs.length := by
    rw [Nat.zero_add, List.filter_eq_self]
    intro row hrow
    have hle := List.le_snd_of_mem_zipIdx hrow
    have hlt := List.snd_lt_add_of_mem_zipIdx hrow
    have hdiv := Nat.div_add_mod xs.length partSize
    simp only [decide_eq_true_eq]
    apply Nat.div_eq_of_lt_le
    · rw [Nat.mul_comm]
      omega
    · rw [Nat.succ_mul, Nat.mul_comm]
      omega
  rw [partRows, partRows, List.zipIdx_append, List.filter_append, hall]

theorem lt_of_mem_partRows {row : α × Nat} (h : row ∈ partRows partSize part xs) :
    row.2 < xs.length ∧ row.2 / partSize = part := by
  obtain ⟨hmem, hpart⟩ := List.mem_filter.mp h
  exact ⟨by simpa using List.snd_lt_of_mem_zipIdx hmem, of_decide_eq_true hpart⟩

/-- Rows of one block, with which a block or a part begins, are one more group. -/
theorem rowGroups_append (hblock : 0 < blockSize) (hne : ys ≠ [])
    (hfits : xs.length % partSize + ys.length ≤ partSize)
    (hwithin : xs.length % blockSize + ys.length ≤ blockSize)
    (hstart : xs.length % partSize = 0 ∨ xs.length % blockSize = 0) :
    rowGroups blockSize partSize (xs.length / partSize) (xs ++ ys) =
      rowGroups blockSize partSize (xs.length / partSize) xs ++ [ys] := by
  have hdiv := Nat.div_add_mod xs.length blockSize
  have hgroup : ∀ row ∈ ys.zipIdx xs.length, row.2 / blockSize = xs.length / blockSize := by
    intro row hrow
    have hle := List.le_snd_of_mem_zipIdx hrow
    have hlt := List.snd_lt_add_of_mem_zipIdx hrow
    apply Nat.div_eq_of_lt_le
    · rw [Nat.mul_comm]
      omega
    · rw [Nat.succ_mul, Nat.mul_comm]
      omega
  have hchain : (ys.zipIdx xs.length).IsChain fun row next =>
      (row.2 / blockSize == next.2 / blockSize) = true := by
    apply List.Pairwise.isChain
    rw [List.pairwise_iff_forall_sublist]
    intro row next hsub
    have hrow := hgroup row (hsub.subset (by simp))
    have hnext := hgroup next (hsub.subset (by simp))
    simp [hrow, hnext]
  have hapart : ∀ row ∈ (partRows partSize (xs.length / partSize) xs).getLast?,
      ∀ next ∈ (ys.zipIdx xs.length).head?,
        (row.2 / blockSize == next.2 / blockSize) = false := by
    intro row hrow next hnext
    obtain ⟨hlt, hpartOf⟩ := lt_of_mem_partRows (List.mem_of_getLast? hrow)
    have hblockOf := hgroup next (List.mem_of_head? hnext)
    have hzero : xs.length % blockSize = 0 := by
      cases hstart with
      | inl hfull =>
        have hdivPart := Nat.div_add_mod xs.length partSize
        have hdivRow := Nat.div_add_mod row.2 partSize
        rw [hpartOf] at hdivRow
        omega
      | inr hzero => exact hzero
    have hbefore : row.2 / blockSize < xs.length / blockSize := by
      rw [Nat.div_lt_iff_lt_mul hblock, Nat.mul_comm]
      omega
    rw [hblockOf, beq_eq_false_iff_ne]
    omega
  rw [rowGroups, rowGroups, partRows_append hfits, List.splitBy_append hapart,
    List.splitBy_of_isChain (by simpa using hne) hchain, List.map_append]
  simp

theorem rowGroups_append_of_full (hsize : 0 < partSize) (h : (part + 1) * partSize ≤ xs.length) :
    rowGroups blockSize partSize part (xs ++ ys) = rowGroups blockSize partSize part xs := by
  rw [rowGroups, rowGroups, partRows_append_of_full hsize h]

/-- A part that lies behind the rows has none. -/
theorem rowGroups_eq_nil (h : xs.length ≤ part * partSize) :
    rowGroups blockSize partSize part xs = [] := by
  have hnone : partRows partSize part xs = [] := by
    rw [List.eq_nil_iff_forall_not_mem]
    intro row hrow
    obtain ⟨hlt, hpart⟩ := lt_of_mem_partRows hrow
    have hle := Nat.div_mul_le_self row.2 partSize
    rw [hpart] at hle
    omega
  rw [rowGroups, hnone]
  rfl

/-- A loop over the blocks whose state follows the rows it has taken. -/
theorem foldl_blocks {σ : Type} {size : Nat} (hsize : 0 < size) (step : σ → List α → σ)
    (state : List α → σ) (hstep : ∀ taken block, size ∣ taken.length → block.length ≤ size →
      step (state taken) block = state (taken ++ block))
    (rows : List α) (taken : List α) (haligned : size ∣ taken.length) :
    (blocks size rows).foldl step (state taken) = state (taken ++ rows) := by
  induction rows using blocks.induct size generalizing taken with
  | case1 rows h =>
    have hnil : rows = [] := h.resolve_right hsize.ne'
    rw [blocks, if_pos h, hnil, List.append_nil]
    rfl
  | case2 rows h ih =>
    have htaken := hstep taken (rows.take size) haligned (List.length_take_le _ _)
    rw [blocks, if_neg h, List.foldl_cons, htaken]
    by_cases hlast : rows.length ≤ size
    · have hnone : blocks size (rows.drop size) = [] := by
        rw [blocks, List.drop_eq_nil_of_le hlast, if_pos (Or.inl rfl)]
      rw [hnone, List.take_of_length_le hlast]
      rfl
    · have hlength : (taken ++ rows.take size).length = taken.length + size := by
        rw [List.length_append, List.length_take]
        omega
      rw [ih (taken ++ rows.take size) (hlength ▸ (Nat.dvd_add_self_right.mpr haligned)),
        List.append_assoc, List.take_append_drop]

/-- The parts have room for every row. -/
theorem le_partCount_mul (hsize : 0 < partSize) (n : Nat) : n ≤ partCount partSize n * partSize := by
  have hdiv := Nat.lt_div_mul_add (a := n - 1) hsize
  rw [partCount, Nat.succ_mul]
  omega

/-- The sizes of the parts add up to the rows. -/
theorem sum_partSizes (hsize : 0 < partSize) (n : Nat) :
    ((List.range (partCount partSize n)).map fun part => min partSize (n - part * partSize)).sum =
      n := by
  have hfirst : ∀ count, ((List.range count).map fun part =>
      min partSize (n - part * partSize)).sum = min (count * partSize) n := by
    intro count
    induction count with
    | zero => simp
    | succ count ih =>
      rw [List.range_succ, List.map_append, List.sum_append, ih, Nat.succ_mul]
      simp only [List.map_cons, List.map_nil, List.sum_cons, List.sum_nil]
      omega
  rw [hfirst, min_eq_right (le_partCount_mul hsize n)]

end Append

/-! ### Contents of the parts -/

section Contents
variable {blockSize partSize : Nat}

/-- The rows of a part are a stretch of the sequence. -/
theorem map_partRows (hsize : 0 < partSize) (part : Nat) (rows : List α) :
    (partRows partSize part rows).map Prod.fst = (rows.drop (part * partSize)).take partSize := by
  have hstretch (n k : Nat) : ((rows.zipIdx k).filter fun row => n ≤ row.2 ∧
      row.2 < n + partSize).map Prod.fst = (rows.drop (n - k)).take (n + partSize - max n k) := by
    induction rows generalizing k with
    | nil => simp
    | cons row rows ih =>
      rw [List.zipIdx_cons, List.filter_cons]
      by_cases hin : n ≤ k ∧ k < n + partSize
      · have hfirst : n - k = 0 := by omega
        have hlength : n + partSize - max n k = (n + partSize - max n (k + 1)) + 1 := by omega
        have hrest : n - (k + 1) = 0 := by omega
        rw [if_pos (by simpa using hin), List.map_cons, ih, hfirst, hlength, hrest]
        rfl
      · rw [if_neg (by simpa using hin), ih]
        by_cases hbefore : k < n
        · have hskip : n - k = (n - (k + 1)) + 1 := by omega
          rw [hskip, List.drop_succ_cons, max_eq_left (by omega), max_eq_left (by omega)]
        · have hnone : n + partSize - max n k = 0 := by omega
          have hnone' : n + partSize - max n (k + 1) = 0 := by omega
          rw [hnone, hnone', List.take_zero, List.take_zero]
  have hpart : partRows partSize part rows = (rows.zipIdx 0).filter fun row =>
      part * partSize ≤ row.2 ∧ row.2 < part * partSize + partSize := by
    apply List.filter_congr
    intro row _
    rw [decide_eq_decide, Nat.div_eq_iff hsize, Nat.mul_comm]
    omega
  rw [hpart, hstretch]
  simp

/-- Grouping leaves the rows of a part as they are. -/
theorem flatten_rowGroups (hsize : 0 < partSize) (part : Nat) (rows : List α) :
    (rowGroups blockSize partSize part rows).flatten =
      (rows.drop (part * partSize)).take partSize := by
  have hflatten (groups : List (List (α × Nat))) :
      (groups.map (·.map (·.1))).flatten = groups.flatten.map (·.1) := by
    rw [List.map_flatten]
  rw [rowGroups, hflatten, List.flatten_splitBy, map_partRows hsize]

/-- The parts one after another are the sequence. -/
theorem flatten_parts (hsize : 0 < partSize) (rows : List α) :
    ((List.range (partCount partSize rows.length)).map fun part =>
      (rows.drop (part * partSize)).take partSize).flatten = rows := by
  have hfirst (count : Nat) : ((List.range count).map fun part =>
      (rows.drop (part * partSize)).take partSize).flatten = rows.take (count * partSize) := by
    induction count with
    | zero => simp
    | succ count ih =>
      rw [List.range_succ, List.map_append, List.flatten_append, ih, Nat.succ_mul, List.take_add]
      simp
  rw [hfirst, List.take_of_length_le (le_partCount_mul hsize rows.length)]

/-- Every part of a sequence that is not empty begins within it. -/
theorem mul_lt_length {part : Nat} {rows : List α} (hne : rows ≠ [])
    (h : part < partCount partSize rows.length) : part * partSize < rows.length := by
  have hpos := List.length_pos_of_ne_nil hne
  have hle : part ≤ (rows.length - 1) / partSize := by
    rw [partCount] at h
    omega
  have hmul := Nat.mul_le_of_le_div partSize part (rows.length - 1) hle
  omega

end Contents

end RowGroups
