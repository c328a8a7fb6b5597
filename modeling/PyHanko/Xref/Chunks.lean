import Mathlib.Data.List.Sort
import PyHanko.Generic

/-!
# Contiguous cross-reference chunks

`_contiguous_xref_chunks` sorts the position dictionary by object number and cuts it into runs
of consecutive numbers. Both encoders, the classic table and the stream, are driven by it.
The main facts: reading the chunks back entry by entry (the `k`-th entry of a chunk starting
at `f` describes object `f + k`) gives the dictionary's entries sorted by number, and the
first chunk starts at the smallest number.
-/

namespace PyHanko

set_option autoImplicit false

/-- A cross-reference entry as a reader decodes it. -/
inductive XrefEntry where
  | free (nextFree generation : Nat)
  | inUse (offset generation : Nat)
  | compressed (streamNum index : Nat)
  deriving DecidableEq, Repr

/-- The position dictionary `write` fills: identity to byte offset. -/
abbrev Positions := PyDict Reference Nat

/-- A subsection: its first object number, and one `(offset, generation)` per object. -/
abbrev XrefChunk := Nat × List (Nat × Nat)

/-- The items of the dictionary in object-number order: Python's stable
`sorted(keys, key=lambda t: t[1])`, each key taken with its value. Insertion sort is stable,
so it sorts as `sorted` does. -/
def sortedById (positions : Positions) : List (Reference × Nat) :=
  positions.items.insertionSort fun a b => a.1.idnum ≤ b.1.idnum

/-- The `for` loop of `_contiguous_xref_chunks`, with `previous_idnum`, `first_idnum` and
`current_chunk` as state; it returns what the generator yields. -/
def chunkLoop : Nat → Nat → List (Nat × Nat) → List (Reference × Nat) → List XrefChunk
  | _, first, current, [] => [(first, current)]
  | previous, first, current, (r, pos) :: rest =>
    if current ≠ [] ∧ r.idnum ≠ previous + 1 then
      (first, current) :: chunkLoop r.idnum r.idnum [(pos, r.generation)] rest
    else chunkLoop r.idnum first (current ++ [(pos, r.generation)]) rest

/-- Modelled from the spec: `pdf_utils.misc.peek`, which is not among the sources, returns
the first element together with an iterator over all elements, the first included ("runs are
computed by sorting identities by id and splitting wherever the id sequence is
non-consecutive"). On an empty dictionary the `next` inside it raises `StopIteration`, which
the generator turns into `RuntimeError`. -/
def peekFirstId : List (Reference × Nat) → Except PdfError Nat
  | [] => .error .runtimeError
  | (r, _) :: _ => .ok r.idnum

/-- `_contiguous_xref_chunks(position_dict)`, drained. `previous_idnum` starts as `None`; it is
read only once `current_chunk` is non-empty, so any start value models it. -/
def contiguousXrefChunks (positions : Positions) : Except PdfError (List XrefChunk) := do
  let first ← peekFirstId (sortedById positions)
  return chunkLoop 0 first [] (sortedById positions)

/-- The entries a chunk describes, each with its object number. -/
def chunkEntries (c : XrefChunk) : List (Nat × (Nat × Nat)) := c.2.enumFrom c.1

/-- An item of the position dictionary as an entry: its number, offset and generation. -/
def itemEntry (e : Reference × Nat) : Nat × (Nat × Nat) := (e.1.idnum, (e.2, e.1.generation))

/-- The in-use entry an item of the position dictionary should be read back as. -/
def usedEntry (e : Reference × Nat) : Nat × XrefEntry := (e.1.idnum, .inUse e.2 e.1.generation)

theorem flatMap_chunkLoop (previous first : Nat) (current : List (Nat × Nat))
    (rest : List (Reference × Nat))
    (hcur : current ≠ [] → previous + 1 = first + current.length)
    (hnil : current = [] → ∀ e ∈ rest.head?, e.1.idnum = first) :
    (chunkLoop previous first current rest).flatMap chunkEntries =
      current.enumFrom first ++ rest.map itemEntry := by
  induction rest generalizing previous first current with
  | nil => simp [chunkLoop, chunkEntries]
  | cons e rest ih =>
    obtain ⟨r, pos⟩ := e
    unfold chunkLoop
    split
    · rename_i hcut
      rw [List.flatMap_cons, ih _ _ _ (fun _ => by simp) (fun h => by simp at h)]
      simp [chunkEntries, itemEntry]
    · rename_i hkeep
      have hnext : r.idnum = first + current.length := by
        by_cases hc : current = []
        · simpa [hc] using hnil hc (r, pos) rfl
        · have h1 := hcur hc
          have h2 : r.idnum = previous + 1 := by
            by_contra h'; exact hkeep ⟨hc, h'⟩
          omega
      rw [ih _ _ _ (fun _ => by simp [hnext]; omega) (fun h => by simp at h)]
      simp [List.enumFrom_append, itemEntry, hnext]

theorem flatMap_contiguousXrefChunks {positions : Positions} {cs : List XrefChunk}
    (h : contiguousXrefChunks positions = .ok cs) :
    cs.flatMap chunkEntries = (sortedById positions).map itemEntry := by
  unfold contiguousXrefChunks at h
  cases hs : sortedById positions with
  | nil => simp [hs, peekFirstId] at h
  | cons e rest =>
    simp only [hs, peekFirstId] at h
    cases h
    rw [flatMap_chunkLoop _ _ _ _ (fun h => absurd rfl h) (fun _ e' he' => by
      simp only [List.head?_cons, Option.mem_def, Option.some.injEq] at he'; rw [he'])]
    rfl

theorem chunkLoop_head (previous first : Nat) (current : List (Nat × Nat))
    (rest : List (Reference × Nat)) :
    ∃ c cs, chunkLoop previous first current rest = (first, c) :: cs ∨
      (current ≠ [] ∧ chunkLoop previous first current rest = (first, current) :: cs) := by
  induction rest generalizing previous first current with
  | nil => exact ⟨current, [], .inl rfl⟩
  | cons e rest ih =>
    obtain ⟨r, pos⟩ := e
    unfold chunkLoop
    split
    · rename_i hcut
      exact ⟨current, _, .inr ⟨hcut.1, rfl⟩⟩
    · obtain ⟨c, cs, h | ⟨_, h⟩⟩ := ih r.idnum first (current ++ [(pos, r.generation)])
      · exact ⟨c, cs, .inl h⟩
      · exact ⟨_, cs, .inl h⟩

theorem contiguousXrefChunks_ok {positions : Positions} (h : positions.items ≠ []) :
    ∃ c cs, contiguousXrefChunks positions = .ok ((((sortedById positions).head?.map
      (·.1.idnum)).getD 0, c) :: cs) := by
  have hne : sortedById positions ≠ [] := by
    intro h'
    have hlen : (sortedById positions).length = positions.items.length := by simp [sortedById]
    rw [h'] at hlen
    exact h (List.eq_nil_of_length_eq_zero hlen.symm)
  obtain ⟨⟨r, pos⟩, rest, hs⟩ := List.exists_cons_of_ne_nil hne
  obtain ⟨c, cs, hc | ⟨hc, _⟩⟩ := chunkLoop_head 0 r.idnum [] ((r, pos) :: rest)
  · exact ⟨c, cs, by simp [contiguousXrefChunks, hs, peekFirstId, hc]⟩
  · exact absurd rfl hc

theorem mem_sortedById {positions : Positions} {e : Reference × Nat} :
    e ∈ sortedById positions ↔ e ∈ positions.items := List.mem_insertionSort _

theorem nodup_idnum_sortedById {positions : Positions}
    (hids : (positions.keys.map Reference.idnum).Nodup) :
    ((sortedById positions).map (·.1.idnum)).Nodup := by
  have hperm := (List.perm_insertionSort
    (fun a b : Reference × Nat => a.1.idnum ≤ b.1.idnum) positions.items).map (·.1.idnum)
  unfold sortedById
  rw [hperm.nodup_iff]
  simpa [PyDict.keys] using hids

theorem exists_item_of_mem_chunk {positions : Positions} {cs : List XrefChunk}
    (h : contiguousXrefChunks positions = .ok cs) {ch : XrefChunk} (hch : ch ∈ cs)
    {e : Nat × Nat} (he : e ∈ ch.2) :
    ∃ r o, (r, o) ∈ positions.items ∧ e = (o, r.generation) := by
  rw [← List.enumFrom_map_snd ch.1 ch.2] at he
  obtain ⟨p, hp, rfl⟩ := List.mem_map.mp he
  have hflat : p ∈ cs.flatMap chunkEntries := List.mem_flatMap.mpr ⟨ch, hch, hp⟩
  rw [flatMap_contiguousXrefChunks h] at hflat
  obtain ⟨⟨r, o⟩, hx, rfl⟩ := List.mem_map.mp hflat
  exact ⟨r, o, mem_sortedById.mp hx, rfl⟩

/-- What a reader should find in a cross-reference section for `positions`: the head of the
free list, then one in-use entry per identity, in number order. -/
def expectedEntries (positions : Positions) : List (Nat × XrefEntry) :=
  (0, .free 0 65535) :: (sortedById positions).map usedEntry

/-- The expected entries list each number once: the free entry for object 0, the in-use entry
`(offset, generation)` for each identity, and nothing else. -/
theorem expectedEntries_spec {positions : Positions}
    (hids : (positions.keys.map Reference.idnum).Nodup)
    (hpos : ∀ r o, (r, o) ∈ positions.items → 1 ≤ r.idnum) :
    ((expectedEntries positions).map Prod.fst).Nodup ∧
      ∀ n e, (n, e) ∈ expectedEntries positions ↔ (n = 0 ∧ e = .free 0 65535) ∨
        ∃ r o, (r, o) ∈ positions.items ∧ r.idnum = n ∧ e = .inUse o r.generation := by
  constructor
  · have hmap : ((sortedById positions).map usedEntry).map Prod.fst =
        (sortedById positions).map (·.1.idnum) := by simp [Function.comp_def, usedEntry]
    simp only [expectedEntries, List.map_cons, List.nodup_cons, hmap,
      nodup_idnum_sortedById hids, and_true]
    intro h0
    obtain ⟨⟨r, o⟩, hmem, hr⟩ := List.mem_map.mp h0
    have := hpos r o (mem_sortedById.mp hmem)
    simp at hr; omega
  · intro n e
    simp only [expectedEntries, List.mem_cons, Prod.mk.injEq, List.mem_map, mem_sortedById]
    constructor
    · rintro (h | ⟨⟨r, o⟩, hmem, he⟩)
      · exact .inl h
      · simp only [usedEntry, Prod.mk.injEq] at he
        exact .inr ⟨r, o, hmem, he.1, he.2.symm⟩
    · rintro (h | ⟨r, o, hmem, rfl, rfl⟩)
      · exact .inl h
      · exact .inr ⟨(r, o), hmem, rfl⟩

end PyHanko
