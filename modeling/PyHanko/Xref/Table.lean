import PyHanko.Format
import PyHanko.Xref.Chunks

/-!
# The classic cross-reference table

`write_xref_table` writes `xref`, then one subsection per chunk: a header `first count` and
`count` entries of twenty bytes. The free-list head (object 0) goes into the first chunk when
that chunk starts at object 1, and into a subsection of its own otherwise.

`readXrefTable` is the reader's side: it consumes `xref` and then subsections while the next
byte is a digit, and lists every entry with its object number.
-/

namespace PyHanko

set_option autoImplicit false

/-- `write_header(idnum, length)`: `'%d %d\n' % (idnum, length)`. -/
def subsectionHeader (first length : Nat) : List UInt8 :=
  ascii (decimal first ++ " " ++ decimal length ++ "\n")

/-- One line of `write_subsection`: `"%010d %05d n \n" % (position, generation)`. -/
def tableEntry (e : Nat × Nat) : List UInt8 :=
  ascii (zeroPadded 10 e.1 ++ " " ++ zeroPadded 5 e.2 ++ " n \n")

/-- `write_subsection(chunk)`. -/
def writeSubsection (chunk : List (Nat × Nat)) : List UInt8 := chunk.flatMap tableEntry

/-- `null_obj_ref`, the head of the free list. -/
def nullObjRef : List UInt8 := ascii "0000000000 65535 f \n"

/-- `write_xref_table(stream, position_dict)` on a stream positioned at `tell`: the bytes it
writes and the offset it returns. -/
def writeXrefTable (tell : Nat) (positions : Positions) : Except PdfError (List UInt8 × Nat) := do
  let chunks ← contiguousXrefChunks positions
  match chunks with
  | [] => .error .runtimeError
  | (firstIdnum, subsection) :: rest =>
    let first :=
      if firstIdnum = 1 then
        subsectionHeader 0 (subsection.length + 1) ++ nullObjRef ++ writeSubsection subsection
      else
        ascii "0 1\n" ++ nullObjRef ++ subsectionHeader firstIdnum subsection.length ++
          writeSubsection subsection
    return (ascii "xref\n" ++ first ++
      rest.flatMap (fun c => subsectionHeader c.1 c.2.length ++ writeSubsection c.2), tell)

/-! ### Reading the table back -/

/-- One twenty-byte entry: ten digits, a space, five digits, then ` n` or ` f` and the two-byte
end of line ` \n`. -/
def readTableEntry (bs : List UInt8) : Option (XrefEntry × List UInt8) := do
  let (a, bs) ← readDigits 10 bs
  let bs ← expect (ascii " ") bs
  let (b, bs) ← readDigits 5 bs
  match expect (ascii " n \n") bs, expect (ascii " f \n") bs with
  | some bs, _ => some (.inUse a b, bs)
  | none, some bs => some (.free a b, bs)
  | none, none => none

/-- `count` entries, numbered from `first`. -/
def readEntries : Nat → Nat → List UInt8 → Option (List (Nat × XrefEntry) × List UInt8)
  | 0, _, bs => some ([], bs)
  | count + 1, first, bs => do
    let (e, bs) ← readTableEntry bs
    let (es, bs) ← readEntries count (first + 1) bs
    some ((first, e) :: es, bs)

/-- A subsection header `first count` and its end of line. -/
def readSubsectionHeader (bs : List UInt8) : Option (Nat × Nat × List UInt8) := do
  let (first, bs) ← readNat bs
  let bs ← expect (ascii " ") bs
  let (count, bs) ← readNat bs
  let bs ← expect (ascii "\n") bs
  some (first, count, bs)

/-- Subsections, while the next byte is a digit; `fuel` bounds their number. -/
def readSubsections : Nat → List UInt8 → Option (List (Nat × XrefEntry) × List UInt8)
  | 0, _ => none
  | fuel + 1, bs =>
    if bs.head?.any isDigit then do
      let (first, count, bs) ← readSubsectionHeader bs
      let (es, bs) ← readEntries count first bs
      let (more, bs) ← readSubsections fuel bs
      some (es ++ more, bs)
    else some ([], bs)

/-- A classic cross-reference section: `xref`, then its subsections; the entries and what
follows the section. -/
def readXrefTable (bs : List UInt8) : Option (List (Nat × XrefEntry) × List UInt8) := do
  let bs ← expect (ascii "xref\n") bs
  readSubsections (bs.length + 1) bs

/-- A position or generation fits the table's fixed-width fields. -/
def FitsTable (e : Nat × Nat) : Prop := e.1 < 10 ^ 10 ∧ e.2 < 10 ^ 5

theorem readTableEntry_tableEntry {e : Nat × Nat} (h : FitsTable e) (rest : List UInt8) :
    readTableEntry (tableEntry e ++ rest) = some (.inUse e.1 e.2, rest) := by
  simp only [tableEntry, ascii_append, List.append_assoc, readTableEntry,
    readDigits_zeroPadded h.1 (by norm_num), readDigits_zeroPadded h.2 (by norm_num),
    expect_append, Option.bind_eq_bind, Option.some_bind]

theorem readTableEntry_nullObjRef (rest : List UInt8) :
    readTableEntry (nullObjRef ++ rest) = some (.free 0 65535, rest) := by
  have hnull : nullObjRef = ascii (zeroPadded 10 0) ++ (ascii " " ++ (ascii (zeroPadded 5 65535) ++
      ascii " f \n")) := by decide
  have hn : expect (ascii " n \n") (ascii " f \n" ++ rest) = none := by
    simp [expect, List.isPrefixOf_iff_prefix, ascii]
  rw [hnull]
  simp only [List.append_assoc, readTableEntry,
    readDigits_zeroPadded (show 0 < 10 ^ 10 by norm_num) (by norm_num),
    readDigits_zeroPadded (show 65535 < 10 ^ 5 by norm_num) (by norm_num),
    expect_append, Option.bind_eq_bind, Option.some_bind, hn]

theorem length_tableEntry {e : Nat × Nat} (h : FitsTable e) : (tableEntry e).length = 20 := by
  simp only [tableEntry, ascii_append, List.length_append,
    length_ascii_zeroPadded h.1 (by norm_num : 0 < 10),
    length_ascii_zeroPadded h.2 (by norm_num : 0 < 5)]
  rfl

theorem readSubsectionHeader_subsectionHeader (first length : Nat) (rest : List UInt8) :
    readSubsectionHeader (subsectionHeader first length ++ rest) = some (first, length, rest) := by
  simp only [readSubsectionHeader, subsectionHeader, ascii_append, List.append_assoc]
  rw [readNat_decimal _ _ (by simp [ascii]; decide)]
  simp only [Option.bind_eq_bind, Option.some_bind, expect_append]
  rw [readNat_decimal _ _ (by simp [ascii]; decide)]
  simp only [Option.some_bind, expect_append]

theorem head_subsectionHeader (first length : Nat) (rest : List UInt8) :
    (subsectionHeader first length ++ rest).head?.any isDigit = true := by
  obtain ⟨b, bs, hb⟩ := List.exists_cons_of_ne_nil (ascii_decimal_ne_nil first)
  have hd : isDigit b := isDigit_of_mem_decimal (by rw [hb]; exact List.mem_cons_self _ _)
  simp [subsectionHeader, hb, hd]

/-- A byte string that reads back as the entry `x`, whatever follows it. -/
def ReadsAs (bs : List UInt8) (x : XrefEntry) : Prop :=
  ∀ rest, readTableEntry (bs ++ rest) = some (x, rest)

/-- A subsection as written: its first number, and each entry's bytes with what they mean. -/
abbrev Subsection := Nat × List (List UInt8 × XrefEntry)

/-- The bytes of a subsection: its header, then its entries. -/
def Subsection.bytes (s : Subsection) : List UInt8 :=
  subsectionHeader s.1 s.2.length ++ (s.2.map Prod.fst).flatten

/-- What a subsection means: the `k`-th entry describes object `first + k`. -/
def Subsection.entries (s : Subsection) : List (Nat × XrefEntry) := (s.2.map Prod.snd).enumFrom s.1

theorem readEntries_readsAs (l : List (List UInt8 × XrefEntry)) (first : Nat)
    (hl : ∀ p ∈ l, ReadsAs p.1 p.2) (rest : List UInt8) :
    readEntries l.length first ((l.map Prod.fst).flatten ++ rest) =
      some ((l.map Prod.snd).enumFrom first, rest) := by
  induction l generalizing first with
  | nil => rfl
  | cons p l ih =>
    simp only [List.length_cons, List.map_cons, List.flatten_cons, List.append_assoc, readEntries,
      hl p (List.mem_cons_self _ _) ((l.map Prod.fst).flatten ++ rest),
      ih (first + 1) (fun q hq => hl q (List.mem_cons_of_mem _ hq)),
      Option.bind_eq_bind, Option.some_bind, List.enumFrom_cons]

theorem readSubsections_subsections (subs : List Subsection) (fuel : Nat)
    (hfuel : subs.length < fuel) (hsubs : ∀ s ∈ subs, ∀ p ∈ s.2, ReadsAs p.1 p.2)
    (rest : List UInt8) (hrest : rest.head?.any isDigit = false) :
    readSubsections fuel (subs.flatMap Subsection.bytes ++ rest) =
      some (subs.flatMap Subsection.entries, rest) := by
  induction subs generalizing fuel with
  | nil =>
    obtain ⟨fuel, rfl⟩ := Nat.exists_eq_add_of_lt hfuel
    simp [readSubsections, hrest]
  | cons s subs ih =>
    obtain ⟨fuel, rfl⟩ : ∃ f, fuel = f + 1 := ⟨fuel - 1, by simp at hfuel; omega⟩
    simp only [List.flatMap_cons, List.append_assoc, Subsection.bytes] at ih ⊢
    simp only [readSubsections, head_subsectionHeader, if_true,
      readSubsectionHeader_subsectionHeader, Option.bind_eq_bind, Option.some_bind]
    rw [readEntries_readsAs s.2 s.1 (hsubs s (List.mem_cons_self _ _)), Option.some_bind,
      ih fuel (by simp at hfuel; omega) (fun s' hs' => hsubs s' (List.mem_cons_of_mem _ hs'))]
    rfl

/-- An entry `write_subsection` writes, with what it means. -/
def tableItem (e : Nat × Nat) : List UInt8 × XrefEntry := (tableEntry e, .inUse e.1 e.2)

/-- The subsections `write_xref_table` writes for its chunks: the head of the free list joins
the first chunk when that starts at object 1, and stands alone before it otherwise. -/
def tableSubsections : List XrefChunk → List Subsection
  | [] => []
  | (first, c) :: rest =>
    (if first = 1 then [(0, (nullObjRef, .free 0 65535) :: c.map tableItem)]
      else [(0, [(nullObjRef, .free 0 65535)]), (first, c.map tableItem)]) ++
    rest.map fun ch => (ch.1, ch.2.map tableItem)

/-- An entry of a chunk, read back from the table. -/
def inUseOf (e : Nat × (Nat × Nat)) : Nat × XrefEntry := (e.1, .inUse e.2.1 e.2.2)

private theorem entries_map_tableItem (f : Nat) (c : List (Nat × Nat)) :
    Subsection.entries (f, c.map tableItem) = (chunkEntries (f, c)).map inUseOf := by
  simp [Subsection.entries, chunkEntries, tableItem, inUseOf, List.enumFrom_map,
    Function.comp_def]

theorem writeXrefTable_eq (tell : Nat) {positions : Positions} {first : Nat}
    {c : List (Nat × Nat)} {rest : List XrefChunk}
    (h : contiguousXrefChunks positions = .ok ((first, c) :: rest)) :
    writeXrefTable tell positions =
      .ok (ascii "xref\n" ++ (tableSubsections ((first, c) :: rest)).flatMap Subsection.bytes,
        tell) := by
  have h01 : ascii "0 1\n" = subsectionHeader 0 1 := by decide
  simp only [writeXrefTable, h, bind, Except.bind, tableSubsections]
  split <;> simp [Subsection.bytes, h01, List.flatMap_map, Function.comp_def, tableItem,
    writeSubsection, List.flatMap, pure, Except.pure]

theorem entries_tableSubsections (first : Nat) (c : List (Nat × Nat)) (rest : List XrefChunk) :
    (tableSubsections ((first, c) :: rest)).flatMap Subsection.entries =
      (0, .free 0 65535) :: (((first, c) :: rest).flatMap chunkEntries).map inUseOf := by
  have hrest : (rest.map fun ch => (ch.1, ch.2.map tableItem)).flatMap Subsection.entries =
      (rest.flatMap chunkEntries).map inUseOf := by
    rw [List.flatMap_map, List.map_flatMap]
    congr 1; funext ch; exact entries_map_tableItem ch.1 ch.2
  unfold tableSubsections
  rw [List.flatMap_append, hrest, List.flatMap_cons, List.map_append]
  split
  · rename_i h1
    subst h1
    show (0, .free 0 65535) :: Subsection.entries (1, c.map tableItem) ++ [] ++ _ = _
    rw [entries_map_tableItem, List.append_nil]; rfl
  · show (0, .free 0 65535) :: Subsection.entries (first, c.map tableItem) ++ [] ++ _ = _
    rw [entries_map_tableItem, List.append_nil]; rfl

theorem length_le_flatMap_bytes (subs : List Subsection) :
    subs.length ≤ (subs.flatMap Subsection.bytes).length := by
  induction subs with
  | nil => simp
  | cons s subs ih =>
    have : 0 < (Subsection.bytes s).length := by
      obtain ⟨b, bs, hb⟩ := List.exists_cons_of_ne_nil (ascii_decimal_ne_nil s.1)
      simp [Subsection.bytes, subsectionHeader, hb]
    simp only [List.length_cons, List.flatMap_cons, List.length_append]; omega

theorem readsAs_tableSubsections {positions : Positions} {cs : List XrefChunk}
    (h : contiguousXrefChunks positions = .ok cs)
    (hfit : ∀ r o, (r, o) ∈ positions.items → FitsTable (o, r.generation)) :
    ∀ s ∈ tableSubsections cs, ∀ p ∈ s.2, ReadsAs p.1 p.2 ∧ p.1.length = 20 := by
  have hitem : ∀ ch ∈ cs, ∀ e ∈ ch.2, ReadsAs (tableItem e).1 (tableItem e).2 ∧
      (tableItem e).1.length = 20 := by
    intro ch hch e he
    obtain ⟨r, o, hmem, rfl⟩ := exists_item_of_mem_chunk h hch he
    simp only [tableItem]
    exact ⟨readTableEntry_tableEntry (hfit r o hmem), length_tableEntry (hfit r o hmem)⟩
  have hnull : ReadsAs nullObjRef (.free 0 65535) ∧ nullObjRef.length = 20 :=
    ⟨readTableEntry_nullObjRef, by decide⟩
  match cs, h, hitem with
  | [], _, _ => simp [tableSubsections]
  | (first, c) :: rest, _, hitem =>
    intro s hs p hp
    simp only [tableSubsections, List.mem_append, List.mem_map] at hs
    rcases hs with hs | ⟨ch, hch, rfl⟩
    · split at hs
      · simp only [List.mem_singleton] at hs
        subst hs
        rcases List.mem_cons.mp hp with rfl | hp
        · exact hnull
        · obtain ⟨e, he, rfl⟩ := List.mem_map.mp hp
          exact hitem _ (List.mem_cons_self _ _) e he
      · simp only [List.mem_cons, List.mem_singleton, List.not_mem_nil, or_false] at hs
        rcases hs with rfl | rfl
        · simp only [List.mem_singleton] at hp; subst hp; exact hnull
        · obtain ⟨e, he, rfl⟩ := List.mem_map.mp hp
          exact hitem _ (List.mem_cons_self _ _) e he
    · obtain ⟨e, he, rfl⟩ := List.mem_map.mp hp
      exact hitem ch (List.mem_cons_of_mem _ hch) e he

/-- Decode after encode: the table `write_xref_table` writes, followed by anything that does not
start with a digit, reads back as the expected entries. -/
theorem readXrefTable_writeXrefTable {tell : Nat} {positions : Positions} {bytes : List UInt8}
    {loc : Nat} (h : writeXrefTable tell positions = .ok (bytes, loc))
    (hfit : ∀ r o, (r, o) ∈ positions.items → FitsTable (o, r.generation))
    (rest : List UInt8) (hrest : rest.head?.any isDigit = false) :
    readXrefTable (bytes ++ rest) = some (expectedEntries positions, rest) ∧ loc = tell := by
  cases hc : contiguousXrefChunks positions with
  | error e => simp [writeXrefTable, hc, bind, Except.bind] at h
  | ok cs =>
    match cs, hc with
    | [], hc => simp [writeXrefTable, hc, bind, Except.bind] at h
    | (first, c) :: chs, hc =>
      rw [writeXrefTable_eq tell hc] at h
      simp only [Except.ok.injEq, Prod.mk.injEq] at h
      obtain ⟨rfl, rfl⟩ := h
      refine ⟨?_, rfl⟩
      have hread := readSubsections_subsections (tableSubsections ((first, c) :: chs))
        (((tableSubsections ((first, c) :: chs)).flatMap Subsection.bytes ++ rest).length + 1)
        (by have := length_le_flatMap_bytes (tableSubsections ((first, c) :: chs))
            simp only [List.length_append]; omega)
        (fun s hs p hp => (readsAs_tableSubsections hc hfit s hs p hp).1) rest hrest
      simp only [readXrefTable, List.append_assoc, expect_append, Option.bind_eq_bind,
        Option.some_bind, hread, entries_tableSubsections, flatMap_contiguousXrefChunks hc,
        expectedEntries, List.map_map]
      rfl

/-- `write_xref_table` writes `xref` and subsections, each a header `first count` and `count`
twenty-byte entries, and returns the offset of `xref`; the table reads back as the position
dictionary: the free entry for object 0, the in-use entry for each identity, nothing else. -/
theorem writeXrefTable_decodes (tell : Nat) (positions : Positions) (hne : positions.items ≠ [])
    (hids : (positions.keys.map Reference.idnum).Nodup)
    (hpos : ∀ r o, (r, o) ∈ positions.items →
      1 ≤ r.idnum ∧ o < 10 ^ 10 ∧ r.generation ≤ 65535) :
    ∃ bytes, writeXrefTable tell positions = .ok (bytes, tell) ∧
      (∃ subs : List (Nat × List (List UInt8)),
        bytes = ascii "xref\n" ++
          subs.flatMap (fun s => subsectionHeader s.1 s.2.length ++ s.2.flatten) ∧
        ∀ s ∈ subs, ∀ e ∈ s.2, e.length = 20) ∧
      ∃ es, readXrefTable bytes = some (es, []) ∧ (es.map Prod.fst).Nodup ∧
        ∀ n e, (n, e) ∈ es ↔ (n = 0 ∧ e = .free 0 65535) ∨
          ∃ r o, (r, o) ∈ positions.items ∧ r.idnum = n ∧ e = .inUse o r.generation := by
  have hfit : ∀ r o, (r, o) ∈ positions.items → FitsTable (o, r.generation) := fun r o h =>
    ⟨(hpos r o h).2.1, by have := (hpos r o h).2.2; norm_num; omega⟩
  obtain ⟨c, cs, hc⟩ := contiguousXrefChunks_ok hne
  generalize ((sortedById positions).head?.map (·.1.idnum)).getD 0 = first at hc
  have hw := writeXrefTable_eq tell hc
  refine ⟨_, hw, ⟨(tableSubsections ((first, c) :: cs)).map fun s => (s.1, s.2.map Prod.fst),
      ?_, ?_⟩,
    expectedEntries positions, ?_, expectedEntries_spec hids fun r o h => (hpos r o h).1⟩
  · simp [List.flatMap_map]; rfl
  · simp only [List.mem_map]
    rintro _ ⟨s, hs, rfl⟩ e he
    obtain ⟨p, hp, rfl⟩ := List.mem_map.mp he
    exact (readsAs_tableSubsections hc hfit s hs p hp).2
  · simpa using (readXrefTable_writeXrefTable hw hfit [] rfl).1

/-- Two objects with a gap between their numbers: `1` at offset 15 and `3` at offset 40. -/
def gapPositions : Positions := ⟨[(⟨0, 1⟩, 15), (⟨0, 3⟩, 40)], by decide⟩

theorem mem_gapPositions {r : Reference} {o : Nat} (h : (r, o) ∈ gapPositions.items) :
    (r = ⟨0, 1⟩ ∧ o = 15) ∨ (r = ⟨0, 3⟩ ∧ o = 40) := by
  simpa [gapPositions] using h

theorem writeXrefTable_decodes_gapPositions :
    gapPositions.items ≠ [] ∧ (gapPositions.keys.map Reference.idnum).Nodup ∧
    (∀ r o, (r, o) ∈ gapPositions.items → 1 ≤ r.idnum ∧ o < 10 ^ 10 ∧ r.generation ≤ 65535) ∧
    ∃ bytes, writeXrefTable 0 gapPositions = .ok (bytes, 0) ∧
      (∃ subs : List (Nat × List (List UInt8)),
        bytes = ascii "xref\n" ++
          subs.flatMap (fun s => subsectionHeader s.1 s.2.length ++ s.2.flatten) ∧
        ∀ s ∈ subs, ∀ e ∈ s.2, e.length = 20) ∧
      ∃ es, readXrefTable bytes = some (es, []) ∧ (es.map Prod.fst).Nodup ∧
        ∀ n e, (n, e) ∈ es ↔ (n = 0 ∧ e = .free 0 65535) ∨
          ∃ r o, (r, o) ∈ gapPositions.items ∧ r.idnum = n ∧ e = .inUse o r.generation := by
  have hpos : ∀ r o, (r, o) ∈ gapPositions.items →
      1 ≤ r.idnum ∧ o < 10 ^ 10 ∧ r.generation ≤ 65535 := fun r o h => by
    rcases mem_gapPositions h with ⟨rfl, rfl⟩ | ⟨rfl, rfl⟩ <;> decide
  exact ⟨by decide, by decide, hpos,
    writeXrefTable_decodes 0 gapPositions (by decide) (by decide) hpos⟩

end PyHanko
