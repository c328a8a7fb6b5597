import Mathlib.Data.List.SplitBy
import PyHanko.Xref.Chunks

/-!
# The chunks are the maximal runs of numbers

What `_contiguous_xref_chunks` is for: it cuts the identities, sorted by number, into maximal
runs of consecutive numbers. `List.splitBy` on "the next number is one more" says that
abstractly (`xrefRuns`); `contiguousXrefChunks_eq_xrefRuns` proves that the generator's loop
computes it. The shape of the chunks then follows from the `splitBy` API and the order of the
sorted items: no chunk is empty, consecutive chunks are separated by a gap, the `m`-th entry of
a chunk starting at `f` is that of the identity numbered `f + m`, and every identity lies in
exactly one chunk.
-/

namespace PyHanko

set_option autoImplicit false

/-- Two sorted items lie in one run: the second's number is one more than the first's. -/
def Consecutive (a b : Reference × Nat) : Bool := b.1.idnum == a.1.idnum + 1

/-- A run of items as the chunk the generator yields for it: its first number, and each item's
offset and generation. -/
def runChunk (run : List (Reference × Nat)) : XrefChunk :=
  ((run.head?.map (·.1.idnum)).getD 0, run.map fun e => (e.2, e.1.generation))

/-- The chunks as the spec describes them: the items sorted by number, split wherever the
numbers are not consecutive. -/
def xrefRuns (positions : Positions) : List XrefChunk :=
  ((sortedById positions).splitBy Consecutive).map runChunk

/-! ### The loop computes the runs -/

theorem runChunk_snoc_fst (run : List (Reference × Nat)) (a e : Reference × Nat) :
    (runChunk (run ++ [a] ++ [e])).1 = (runChunk (run ++ [a])).1 := by
  cases run <;> rfl

theorem splitByLoop_runChunk (rest : List (Reference × Nat)) (ag : Reference × Nat)
    (g : List (Reference × Nat)) (gs : List (List (Reference × Nat))) :
    (List.splitBy.loop Consecutive rest ag g gs).map runChunk =
      gs.reverse.map runChunk ++ chunkLoop ag.1.idnum (runChunk (g.reverse ++ [ag])).1
        (runChunk (g.reverse ++ [ag])).2 rest := by
  induction rest generalizing ag g gs with
  | nil => simp [List.splitBy.loop, chunkLoop]
  | cons a rest ih =>
    have hcur : (runChunk (g.reverse ++ [ag])).2 ≠ [] := by simp [runChunk]
    rw [List.splitBy.loop]
    by_cases h : a.1.idnum = ag.1.idnum + 1
    · have hc : Consecutive ag a = true := by simp [Consecutive, h]
      simp only [hc, ih, List.reverse_cons, runChunk_snoc_fst, chunkLoop, h, ne_eq, not_true,
        and_false, if_false]
      simp [runChunk]
    · have hc : Consecutive ag a = false := by simp [Consecutive, h]
      simp only [hc, ih, chunkLoop, hcur, h, ne_eq, not_false_iff, and_self, if_true]
      simp [runChunk]

/-- `_contiguous_xref_chunks` yields the runs of the sorted items, when there is an item. -/
theorem contiguousXrefChunks_eq_xrefRuns {positions : Positions} (h : positions.items ≠ []) :
    contiguousXrefChunks positions = .ok (xrefRuns positions) := by
  have hlen : (sortedById positions).length = positions.items.length := by simp [sortedById]
  have hne : sortedById positions ≠ [] := fun h' =>
    h (List.eq_nil_of_length_eq_zero (by rw [← hlen, h', List.length_nil]))
  obtain ⟨⟨r, o⟩, rest, hs⟩ := List.exists_cons_of_ne_nil hne
  have := splitByLoop_runChunk rest (r, o) [] []
  simp only [List.reverse_nil, List.map_nil, List.nil_append] at this
  simp only [contiguousXrefChunks, xrefRuns, hs, peekFirstId, List.splitBy, this, bind,
    Except.bind, pure, Except.pure, chunkLoop]
  simp [runChunk]

/-! ### The shape of the runs -/

theorem chain'_of_chain'_pairwise {α : Type} {R S T : α → α → Prop} :
    ∀ {l : List α}, l.Chain' R → l.Pairwise S →
      (∀ a ∈ l, ∀ b ∈ l, R a b → S a b → T a b) → l.Chain' T
  | [], _, _, _ => List.chain'_nil
  | [_], _, _, _ => List.chain'_singleton _
  | a :: b :: l, hc, hp, h => by
    rw [List.chain'_cons] at hc ⊢
    refine ⟨h a (by simp) b (by simp) hc.1 (List.rel_of_pairwise_cons hp (by simp)), ?_⟩
    exact chain'_of_chain'_pairwise hc.2 hp.of_cons fun x hx y hy => h x (by simp [hx]) y
      (List.mem_cons_of_mem _ hy)

theorem idnum_getElem_of_chain' : ∀ {run : List (Reference × Nat)},
    run.Chain' (fun a b => Consecutive a b = true) →
    ∀ m (hm : m < run.length), run[m].1.idnum = (runChunk run).1 + m
  | [], _, m, hm => absurd hm (Nat.not_lt_zero m)
  | _ :: _, _, 0, _ => rfl
  | a :: b :: run, h, m + 1, hm => by
    rw [List.chain'_cons] at h
    have hb : b.1.idnum = a.1.idnum + 1 := by simpa [Consecutive] using h.1
    have := idnum_getElem_of_chain' h.2 m (by simpa using hm)
    simp only [List.getElem_cons_succ, this]
    simp only [runChunk, List.head?_cons, Option.map_some', Option.getD_some, hb]
    omega

section Shape

variable {positions : Positions}

theorem sortedById_lt (hids : (positions.keys.map Reference.idnum).Nodup) :
    (sortedById positions).Pairwise fun a b => a.1.idnum < b.1.idnum := by
  haveI : IsTotal (Reference × Nat) fun a b => a.1.idnum ≤ b.1.idnum :=
    ⟨fun _ _ => le_total _ _⟩
  haveI : IsTrans (Reference × Nat) fun a b => a.1.idnum ≤ b.1.idnum := ⟨fun _ _ _ => le_trans⟩
  have hle := List.sorted_insertionSort (fun a b : Reference × Nat => a.1.idnum ≤ b.1.idnum)
    positions.items
  have hne := List.pairwise_map.mp (nodup_idnum_sortedById hids)
  exact (hle.and hne).imp fun h => lt_of_le_of_ne h.1 h.2

theorem runChunk_getLast {run : List (Reference × Nat)}
    (hrun : run ∈ (sortedById positions).splitBy Consecutive) (hne : run ≠ []) :
    (run.getLast hne).1.idnum + 1 = (runChunk run).1 + (runChunk run).2.length := by
  have hlen : 0 < run.length := List.length_pos.mpr hne
  rw [List.getLast_eq_getElem,
    idnum_getElem_of_chain' (List.chain'_of_mem_splitBy hrun) _ (by omega)]
  simp only [runChunk, List.length_map]
  omega

theorem runChunk_fst {run : List (Reference × Nat)} (hne : run ≠ []) :
    (runChunk run).1 = (run.head hne).1.idnum := by
  cases run with
  | nil => exact absurd rfl hne
  | cons _ _ => rfl

theorem runs_pairwise (hids : (positions.keys.map Reference.idnum).Nodup) :
    ((sortedById positions).splitBy Consecutive).Pairwise
      fun a b => ∀ x ∈ a, ∀ y ∈ b, x.1.idnum < y.1.idnum := by
  have h := sortedById_lt hids
  rw [← List.flatten_splitBy Consecutive (sortedById positions)] at h
  exact (List.pairwise_flatten.mp h).2

theorem xrefRuns_pairwise (hids : (positions.keys.map Reference.idnum).Nodup) :
    (xrefRuns positions).Pairwise fun a b => a.1 + a.2.length ≤ b.1 := by
  refine List.pairwise_map.mpr ((runs_pairwise hids).imp_of_mem fun {a b} ha hb hab => ?_)
  have hane := List.ne_nil_of_mem_splitBy Consecutive ha
  have hbne := List.ne_nil_of_mem_splitBy Consecutive hb
  have := hab _ (List.getLast_mem hane) _ (List.head_mem hbne)
  have := runChunk_getLast ha hane
  have := runChunk_fst hbne
  omega

theorem xrefRuns_chain' (hids : (positions.keys.map Reference.idnum).Nodup) :
    (xrefRuns positions).Chain' fun a b => a.1 + a.2.length < b.1 := by
  refine (List.chain'_map runChunk).mpr (chain'_of_chain'_pairwise
    (List.chain'_getLast_head_splitBy Consecutive (sortedById positions)) (runs_pairwise hids)
    fun a ha b _ ⟨hane, hbne, hcut⟩ hab => ?_)
  simp only [Consecutive, beq_eq_false_iff_ne] at hcut
  have := hab _ (List.getLast_mem hane) _ (List.head_mem hbne)
  have := runChunk_getLast ha hane
  have := runChunk_fst hbne
  omega

theorem xrefRuns_getElem {ch : XrefChunk} (hch : ch ∈ xrefRuns positions) (m : Nat)
    (hm : m < ch.2.length) :
    ∃ g o, positions.get? ⟨g, ch.1 + m⟩ = some o ∧ ch.2[m] = (o, g) := by
  obtain ⟨run, hrun, rfl⟩ := List.mem_map.mp hch
  have hm' : m < run.length := by simpa [runChunk] using hm
  have hmem : run[m] ∈ positions.items := mem_sortedById.mp
    (List.flatten_splitBy Consecutive (sortedById positions) ▸
      List.mem_flatten.mpr ⟨run, hrun, List.getElem_mem hm'⟩)
  refine ⟨run[m].1.generation, run[m].2, ?_, by simp [runChunk]⟩
  rw [← idnum_getElem_of_chain' (List.chain'_of_mem_splitBy hrun) m hm']
  exact (PyDict.get?_eq_some_iff _).mpr hmem

theorem xrefRuns_index_eq (hids : (positions.keys.map Reference.idnum).Nodup) {j j' n : Nat}
    {ch ch' : XrefChunk} (hj : (xrefRuns positions)[j]? = some ch)
    (hj' : (xrefRuns positions)[j']? = some ch') (hn : ch.1 ≤ n ∧ n < ch.1 + ch.2.length)
    (hn' : ch'.1 ≤ n ∧ n < ch'.1 + ch'.2.length) : j = j' := by
  obtain ⟨hjl, rfl⟩ := List.getElem?_eq_some_iff.mp hj
  obtain ⟨hjl', rfl⟩ := List.getElem?_eq_some_iff.mp hj'
  have hpw := List.pairwise_iff_getElem.mp (xrefRuns_pairwise hids)
  rcases Nat.lt_trichotomy j j' with h | h | h
  · have := hpw j j' hjl hjl' h; omega
  · exact h
  · have := hpw j' j hjl' hjl h; omega

/-- Every identity's entry lies in exactly one chunk. -/
theorem xrefRuns_existsUnique (hne : positions.items ≠ [])
    (hids : (positions.keys.map Reference.idnum).Nodup) {r : Reference} {o : Nat}
    (h : positions.get? r = some o) :
    ∃! j : Nat, ∃ ch, (xrefRuns positions)[j]? = some ch ∧
      (r.idnum, (o, r.generation)) ∈ chunkEntries ch := by
  have hitem : itemEntry (r, o) ∈ (xrefRuns positions).flatMap chunkEntries := by
    rw [flatMap_contiguousXrefChunks (contiguousXrefChunks_eq_xrefRuns hne)]
    exact List.mem_map_of_mem _ (mem_sortedById.mpr ((PyDict.get?_eq_some_iff _).mp h))
  obtain ⟨ch, hch, hmem⟩ := List.mem_flatMap.mp hitem
  obtain ⟨j, hj⟩ := List.mem_iff_getElem?.mp hch
  have hcov := List.mem_enumFrom hmem
  refine ⟨j, ⟨ch, hj, hmem⟩, fun j' ⟨ch', hj', hmem'⟩ => ?_⟩
  have hcov' := List.mem_enumFrom hmem'
  exact xrefRuns_index_eq hids hj' hj ⟨hcov'.1, hcov'.2.1⟩ ⟨hcov.1, hcov.2.1⟩

theorem flatten_xrefRuns :
    ((xrefRuns positions).map Prod.snd).flatten =
      (sortedById positions).map fun e => (e.2, e.1.generation) := by
  rw [xrefRuns, List.map_map]
  show (((sortedById positions).splitBy Consecutive).map
    (List.map fun e => (e.2, e.1.generation))).flatten = _
  rw [← List.map_flatten, List.flatten_splitBy]

end Shape

/-- For every non-empty position dictionary with distinct numbers, `_contiguous_xref_chunks`
yields a non-empty list of non-empty chunks, consecutive ones separated by a gap; the `m`-th
entry of a chunk starting at `f` is `(positions[(g, f + m)], g)` for the identity `(g, f + m)`;
every identity lies in exactly one chunk; and the chunks, read one after another, are the
dictionary's entries sorted by number. -/
theorem contiguousXrefChunks_maximal_runs {positions : Positions} (hne : positions.items ≠ [])
    (hids : (positions.keys.map Reference.idnum).Nodup) :
    ∃ cs : List XrefChunk, contiguousXrefChunks positions = .ok cs ∧ cs ≠ [] ∧
      (∀ ch ∈ cs, ch.2 ≠ []) ∧ cs.Chain' (fun a b => a.1 + a.2.length < b.1) ∧
      (∀ ch ∈ cs, ∀ m (hm : m < ch.2.length),
        ∃ g o, positions.get? ⟨g, ch.1 + m⟩ = some o ∧ ch.2[m] = (o, g)) ∧
      (∀ r o, positions.get? r = some o →
        ∃! j : Nat, ∃ ch, cs[j]? = some ch ∧ (r.idnum, (o, r.generation)) ∈ chunkEntries ch) ∧
      (cs.map Prod.snd).flatten = (sortedById positions).map (fun e => (e.2, e.1.generation)) ∧
      (sortedById positions).Perm positions.items ∧
      (sortedById positions).Pairwise (fun a b => a.1.idnum < b.1.idnum) := by
  have hflat : ((xrefRuns positions).map Prod.snd).flatten =
      (sortedById positions).map fun e => (e.2, e.1.generation) := flatten_xrefRuns
  refine ⟨_, contiguousXrefChunks_eq_xrefRuns hne, fun h => ?_, fun ch hch => ?_,
    xrefRuns_chain' hids, fun ch hch => xrefRuns_getElem hch, fun r o h =>
    xrefRuns_existsUnique hne hids h, hflat, List.perm_insertionSort _ _, sortedById_lt hids⟩
  · -- the chunks flatten to the sorted items, of which there is one
    have hlen := congrArg List.length hflat
    rw [h, List.map_nil, List.flatten_nil, List.length_nil, List.length_map, sortedById,
      List.length_insertionSort] at hlen
    exact hne (List.eq_nil_of_length_eq_zero hlen.symm)
  · obtain ⟨run, hrun, rfl⟩ := List.mem_map.mp hch
    simpa [runChunk] using List.ne_nil_of_mem_splitBy Consecutive hrun

/-- Three objects: `1` and `2` in one run, then `5` after a gap. -/
def runPositions : Positions := ⟨[(⟨0, 1⟩, 15), (⟨0, 2⟩, 30), (⟨0, 5⟩, 60)], by decide⟩

theorem contiguousXrefChunks_maximal_runs_runPositions :
    runPositions.items ≠ [] ∧ (runPositions.keys.map Reference.idnum).Nodup ∧
    ∃ cs : List XrefChunk, contiguousXrefChunks runPositions = .ok cs ∧ cs ≠ [] ∧
      (∀ ch ∈ cs, ch.2 ≠ []) ∧ cs.Chain' (fun a b => a.1 + a.2.length < b.1) ∧
      (∀ ch ∈ cs, ∀ m (hm : m < ch.2.length),
        ∃ g o, runPositions.get? ⟨g, ch.1 + m⟩ = some o ∧ ch.2[m] = (o, g)) ∧
      (∀ r o, runPositions.get? r = some o →
        ∃! j : Nat, ∃ ch, cs[j]? = some ch ∧ (r.idnum, (o, r.generation)) ∈ chunkEntries ch) ∧
      (cs.map Prod.snd).flatten =
        (sortedById runPositions).map (fun e => (e.2, e.1.generation)) ∧
      (sortedById runPositions).Perm runPositions.items ∧
      (sortedById runPositions).Pairwise (fun a b => a.1.idnum < b.1.idnum) :=
  ⟨by decide, by decide, contiguousXrefChunks_maximal_runs (by decide) (by decide)⟩

end PyHanko
