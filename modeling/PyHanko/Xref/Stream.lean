import PyHanko.Xref.Table

/-!
# The cross-reference stream

`XRefStream` is a stream object with `/W [1 8 2]`; `write_to_stream` sets `/Index` to the
pairs `first count` of the chunks, preceded by `0 1` for the head of the free list, and the
payload to one eleven-byte record per entry: a type byte, a big-endian `Q` offset and a
big-endian `H` generation. Serializing the stream object itself is the object model's business.

`decodeXrefStream` reads the payload against `/Index` with the widths `[1, 8, 2]`.
-/

namespace PyHanko

set_option autoImplicit false

/-- `XRefStream.__init__`: the entries it starts with. -/
def xrefStreamInit : Entries :=
  [("/W", .array [.number 1, .number 8, .number 2]), ("/Type", .name "/XRef")]

/-- `b'\x00' * 9 + b'\xff\xff'`, the record of the free-list head. -/
def nullRecord : List UInt8 := List.replicate 9 0 ++ [255, 255]

/-- One record of the loop: `b'\x01'`, `struct.pack('>Q', position)`,
`struct.pack('>H', generation)`. -/
def streamRecord (e : Nat × Nat) : Except PdfError (List UInt8) := do
  let p ← packBE 8 e.1
  let g ← packBE 2 e.2
  return [1] ++ p ++ g

/-- The `/Index` array and the payload `write_to_stream` computes. -/
def xrefStreamContent (positions : Positions) : Except PdfError (List Nat × List UInt8) := do
  let chunks ← contiguousXrefChunks positions
  let records ← chunks.mapM fun ch => ch.2.mapM streamRecord
  return ([0, 1] ++ chunks.flatMap (fun ch => [ch.1, ch.2.length]),
    nullRecord ++ (records.map List.flatten).flatten)

/-- `XRefStream.write_to_stream(stream, encryption_key)`, up to the final
`super().write_to_stream(stream, None)`: the stream object that call serializes. -/
def XRefStream.writeToStream (entries : Entries) (positions : Positions)
    (encryptionKey : Option (List UInt8)) : Except PdfError PdfObject := do
  if encryptionKey.isSome then throw (.valueError "XRef streams cannot be encrypted")
  let (index, data) ← xrefStreamContent positions
  return .dictionary (setEntry entries "/Index" (.array (index.map fun (n : Nat) => .number n))) (some data)

/-! ### Reading the stream back -/

/-- The `/Index` array as pairs `first count`. -/
def indexPairs : List Nat → Option (List (Nat × Nat))
  | [] => some []
  | f :: c :: rest => (indexPairs rest).map ((f, c) :: ·)
  | [_] => none

/-- One record of widths `[1, 8, 2]`: type 0 is free, 1 in use, 2 compressed. -/
def readRecord : List UInt8 → Option (XrefEntry × List UInt8)
  | t :: rest =>
    if 10 ≤ rest.length then
      let f2 := valueBE (rest.take 8)
      let f3 := valueBE ((rest.drop 8).take 2)
      match t.toNat with
      | 0 => some (.free f2 f3, rest.drop 10)
      | 1 => some (.inUse f2 f3, rest.drop 10)
      | 2 => some (.compressed f2 f3, rest.drop 10)
      | _ => none
    else none
  | [] => none

/-- `count` records, numbered from `first`. -/
def readRecords : Nat → Nat → List UInt8 → Option (List (Nat × XrefEntry) × List UInt8)
  | 0, _, bs => some ([], bs)
  | count + 1, first, bs => do
    let (e, bs) ← readRecord bs
    let (es, bs) ← readRecords count (first + 1) bs
    some ((first, e) :: es, bs)

/-- The records of each `/Index` pair in turn. -/
def readSections : List (Nat × Nat) → List UInt8 → Option (List (Nat × XrefEntry) × List UInt8)
  | [], bs => some ([], bs)
  | (f, c) :: ps, bs => do
    let (es, bs) ← readRecords c f bs
    let (more, bs) ← readSections ps bs
    some (es ++ more, bs)

/-- Decode a cross-reference stream's payload against its `/Index`; the payload must be used
up exactly. -/
def decodeXrefStream (index : List Nat) (data : List UInt8) : Option (List (Nat × XrefEntry)) := do
  let pairs ← indexPairs index
  let (es, rest) ← readSections pairs data
  if rest = [] then some es else none

/-- A position and a generation fit `>Q` and `>H`. -/
def FitsStream (e : Nat × Nat) : Prop := e.1 < 2 ^ 64 ∧ e.2 < 2 ^ 16

theorem streamRecord_eq {e : Nat × Nat} (h : FitsStream e) :
    streamRecord e = .ok ([1] ++ bytesBE 8 e.1 ++ bytesBE 2 e.2) := by
  obtain ⟨h8, h2⟩ := h
  norm_num at h8 h2
  simp [streamRecord, packBE, h8, h2, bind, Except.bind, pure, Except.pure]

theorem readRecord_record {e : Nat × Nat} (h : FitsStream e) (rest : List UInt8) :
    readRecord ([1] ++ bytesBE 8 e.1 ++ bytesBE 2 e.2 ++ rest) = some (.inUse e.1 e.2, rest) := by
  obtain ⟨h8, h2⟩ := h
  norm_num at h8 h2
  simp [readRecord, List.take_append_eq_append_take, List.drop_append_eq_append_drop,
    valueBE_bytesBE, h8, h2]
  omega

theorem readRecord_nullRecord (rest : List UInt8) :
    readRecord (nullRecord ++ rest) = some (.free 0 65535, rest) := by
  have hnull : nullRecord = [0] ++ bytesBE 8 0 ++ bytesBE 2 65535 := by decide
  rw [hnull]
  simp [readRecord, List.take_append_eq_append_take, List.drop_append_eq_append_drop,
    valueBE_bytesBE]
  omega

/-- The record the loop writes for an entry that fits its fields. -/
def record (e : Nat × Nat) : List UInt8 := [1] ++ bytesBE 8 e.1 ++ bytesBE 2 e.2

theorem mapM_ok {α β : Type} {f : α → Except PdfError β} {g : α → β} :
    ∀ {l : List α}, (∀ x ∈ l, f x = .ok (g x)) → l.mapM f = .ok (l.map g)
  | [], _ => rfl
  | x :: l, h => by
    rw [List.mapM_cons, h x (List.mem_cons_self _ _),
      mapM_ok fun y hy => h y (List.mem_cons_of_mem _ hy)]
    rfl

theorem forall_mem_of_mapM_eq_ok {α β : Type} {f : α → Except PdfError β} {P : β → Prop}
    (hf : ∀ x y, f x = .ok y → P y) :
    ∀ {l : List α} {ys : List β}, l.mapM f = .ok ys → ∀ y ∈ ys, P y
  | [], _, h => by cases h; simp
  | x :: l, _, h => by
    rw [List.mapM_cons] at h
    obtain ⟨y, hy, h⟩ := exists_of_bind_eq_ok h
    obtain ⟨ys, hys, h⟩ := exists_of_bind_eq_ok h
    cases h
    exact List.forall_mem_cons.mpr ⟨hf x y hy, forall_mem_of_mapM_eq_ok hf hys⟩

theorem length_of_packBE {w n : Nat} {bs : List UInt8} (h : packBE w n = .ok bs) :
    bs.length = w := by
  unfold packBE at h
  split at h
  · cases h; exact length_bytesBE w n
  · cases h

theorem length_of_streamRecord {e : Nat × Nat} {bs : List UInt8} (h : streamRecord e = .ok bs) :
    bs.length = 11 := by
  obtain ⟨p, hp, h⟩ := exists_of_bind_eq_ok h
  obtain ⟨g, hg, h⟩ := exists_of_bind_eq_ok h
  cases h
  simp [length_of_packBE hp, length_of_packBE hg]

/-- Whenever the stream encoder completes, its payload is a sequence of eleven-byte records. -/
theorem xrefStreamContent_records {positions : Positions} {index : List Nat}
    {data : List UInt8} (h : xrefStreamContent positions = .ok (index, data)) :
    ∃ records : List (List UInt8), data = records.flatten ∧ ∀ r ∈ records, r.length = 11 := by
  obtain ⟨chunks, -, h⟩ := exists_of_bind_eq_ok h
  obtain ⟨recs, hrecs, h⟩ := exists_of_bind_eq_ok h
  cases h
  refine ⟨nullRecord :: recs.flatten, by simp [List.flatten_flatten], ?_⟩
  have hlen : ∀ rs ∈ recs, ∀ r ∈ rs, r.length = 11 := forall_mem_of_mapM_eq_ok
    (fun _ _ hch => forall_mem_of_mapM_eq_ok (fun _ _ => length_of_streamRecord) hch) hrecs
  simp only [List.mem_cons, List.mem_flatten]
  rintro r (rfl | ⟨rs, hrs, hr⟩)
  · rfl
  · exact hlen rs hrs r hr

theorem readRecords_records (c : List (Nat × Nat)) (first : Nat) (hc : ∀ e ∈ c, FitsStream e)
    (rest : List UInt8) :
    readRecords c.length first ((c.map record).flatten ++ rest) =
      some ((chunkEntries (first, c)).map inUseOf, rest) := by
  induction c generalizing first with
  | nil => rfl
  | cons e c ih =>
    simp only [record, List.map_cons, List.flatten_cons, List.length_cons, List.append_assoc,
      readRecords] at ih ⊢
    rw [← List.append_assoc, ← List.append_assoc, readRecord_record (hc e (by simp))]
    simp only [Option.bind_eq_bind, Option.some_bind,
      ih (first + 1) (fun e he => hc e (List.mem_cons_of_mem _ he))]
    rfl

theorem readSections_chunks (chunks : List XrefChunk) (hc : ∀ ch ∈ chunks, ∀ e ∈ ch.2, FitsStream e)
    (rest : List UInt8) :
    readSections (chunks.map fun ch => (ch.1, ch.2.length))
        ((chunks.map fun ch => (ch.2.map record).flatten).flatten ++ rest) =
      some ((chunks.flatMap chunkEntries).map inUseOf, rest) := by
  induction chunks with
  | nil => rfl
  | cons ch chunks ih =>
    obtain ⟨f, c⟩ := ch
    simp only [List.map_cons, List.flatten_cons, List.append_assoc, readSections]
    rw [readRecords_records c f (hc _ (List.mem_cons_self _ _)), Option.bind_eq_bind,
      Option.some_bind, ih (fun ch h => hc ch (List.mem_cons_of_mem _ h))]
    simp

theorem indexPairs_chunks (chunks : List XrefChunk) :
    indexPairs (chunks.flatMap fun ch => [ch.1, ch.2.length]) =
      some (chunks.map fun ch => (ch.1, ch.2.length)) := by
  induction chunks with
  | nil => rfl
  | cons ch chunks ih =>
    show (indexPairs (chunks.flatMap _)).map _ = _
    rw [ih]; rfl

theorem xrefStreamContent_eq {positions : Positions} {chunks : List XrefChunk}
    (h : contiguousXrefChunks positions = .ok chunks)
    (hfit : ∀ r o, (r, o) ∈ positions.items → FitsStream (o, r.generation)) :
    xrefStreamContent positions = .ok ([0, 1] ++ chunks.flatMap (fun ch => [ch.1, ch.2.length]),
      nullRecord ++ (chunks.map fun ch => (ch.2.map record).flatten).flatten) := by
  have hrec : chunks.mapM (fun ch => ch.2.mapM streamRecord) =
      .ok (chunks.map fun ch => ch.2.map record) :=
    mapM_ok fun ch hch => mapM_ok fun e he => by
      obtain ⟨r, o, hmem, rfl⟩ := exists_item_of_mem_chunk h hch he
      exact streamRecord_eq (hfit r o hmem)
  unfold xrefStreamContent
  rw [h]
  simp only [bind, Except.bind]
  rw [hrec]
  simp [pure, Except.pure, Function.comp_def]

/-- Decode after encode: the stream's payload, read against its `/Index`, gives the expected
entries. -/
theorem decodeXrefStream_content {positions : Positions} {chunks : List XrefChunk}
    (h : contiguousXrefChunks positions = .ok chunks)
    (hfit : ∀ r o, (r, o) ∈ positions.items → FitsStream (o, r.generation)) :
    decodeXrefStream ([0, 1] ++ chunks.flatMap (fun ch => [ch.1, ch.2.length]))
        (nullRecord ++ (chunks.map fun ch => (ch.2.map record).flatten).flatten) =
      some (expectedEntries positions) := by
  have hc : ∀ ch ∈ chunks, ∀ e ∈ ch.2, FitsStream e := fun ch hch e he => by
    obtain ⟨r, o, hmem, rfl⟩ := exists_item_of_mem_chunk h hch he
    exact hfit r o hmem
  have hsec := readSections_chunks chunks hc []
  rw [List.append_nil] at hsec
  have hnull : readRecords 1 0 (nullRecord ++ (chunks.map fun ch => (ch.2.map record).flatten).flatten)
      = some ([(0, .free 0 65535)], (chunks.map fun ch => (ch.2.map record).flatten).flatten) := by
    simp [readRecords, readRecord_nullRecord]
  have hidx : indexPairs ([0, 1] ++ chunks.flatMap (fun ch => [ch.1, ch.2.length])) =
      some ((0, 1) :: chunks.map fun ch => (ch.1, ch.2.length)) := by
    show (indexPairs (chunks.flatMap _)).map _ = _
    rw [indexPairs_chunks]; rfl
  unfold decodeXrefStream
  rw [hidx]
  simp only [Option.bind_eq_bind, Option.some_bind, readSections, hnull, hsec, if_true,
    expectedEntries, flatMap_contiguousXrefChunks h, List.map_map]
  rfl

theorem length_record_flatten (c : List (Nat × Nat)) :
    ((c.map record).flatten).length = 11 * c.length := by
  induction c with
  | nil => rfl
  | cons e c ih => simp [record, ih]; omega

/-- `XRefStream.write_to_stream(stream, None)` sets `/Index` to `[0, 1, f₁, c₁, …]` and the payload
to eleven bytes per listed entry; decoding the payload against `/Index` gives the free entry for
object 0 and the in-use entry for each identity, each number once and no compressed entry; and
when the offsets also fit the table's ten digits, `write_xref_table` reads back to the same
entries. -/
theorem xrefStream_decodes (entries : Entries) (positions : Positions)
    (hne : positions.items ≠ []) (hids : (positions.keys.map Reference.idnum).Nodup)
    (hpos : ∀ r o, (r, o) ∈ positions.items → 1 ≤ r.idnum ∧ o < 2 ^ 64 ∧ r.generation < 2 ^ 16) :
    ∃ index data, XRefStream.writeToStream entries positions none =
        .ok (.dictionary (setEntry entries "/Index" (.array (index.map fun (n : Nat) => .number n)))
          (some data)) ∧
      (∃ pairs : List (Nat × Nat), index = 0 :: 1 :: pairs.flatMap (fun p => [p.1, p.2]) ∧
        data.length = 11 * (1 + (pairs.map Prod.snd).sum)) ∧
      ∃ es, decodeXrefStream index data = some es ∧ (es.map Prod.fst).Nodup ∧
        (∀ n e, (n, e) ∈ es ↔ (n = 0 ∧ e = .free 0 65535) ∨
          ∃ r o, (r, o) ∈ positions.items ∧ r.idnum = n ∧ e = .inUse o r.generation) ∧
        (∀ n a b, (n, XrefEntry.compressed a b) ∉ es) ∧
        ((∀ r o, (r, o) ∈ positions.items → o < 10 ^ 10) → ∀ tell, ∃ bytes,
          writeXrefTable tell positions = .ok (bytes, tell) ∧ readXrefTable bytes = some (es, [])) := by
  obtain ⟨c, cs, hc⟩ := contiguousXrefChunks_ok hne
  generalize ((sortedById positions).head?.map (·.1.idnum)).getD 0 = first at hc
  have hfit : ∀ r o, (r, o) ∈ positions.items → FitsStream (o, r.generation) :=
    fun r o h => ⟨(hpos r o h).2.1, (hpos r o h).2.2⟩
  have hspec := expectedEntries_spec hids fun r o h => (hpos r o h).1
  refine ⟨_, _, ?_, ⟨((first, c) :: cs).map fun ch => (ch.1, ch.2.length), ?_, ?_⟩,
    expectedEntries positions, decodeXrefStream_content hc hfit, hspec.1, hspec.2, ?_, ?_⟩
  · simp [XRefStream.writeToStream, xrefStreamContent_eq hc hfit, bind, Except.bind, pure,
      Except.pure]
  · simp [List.flatMap_map]
  · simp only [List.length_append, List.length_flatten, List.map_map]
    have hnull : nullRecord.length = 11 := rfl
    rw [hnull, Nat.mul_add, Nat.mul_one, ← List.sum_map_mul_left]
    congr 2
    exact List.map_congr_left fun ch _ => by
      simp only [Function.comp_apply]; exact length_record_flatten ch.2
  · intro n a b hmem
    rcases (hspec.2 n _).mp hmem with ⟨_, h⟩ | ⟨_, _, _, _, h⟩ <;> cases h
  · intro hten tell
    have htab : ∀ r o, (r, o) ∈ positions.items → FitsTable (o, r.generation) := fun r o h =>
      ⟨hten r o h, by have := (hpos r o h).2.2; norm_num at this ⊢; omega⟩
    exact ⟨_, writeXrefTable_eq tell hc,
      by simpa using (readXrefTable_writeXrefTable (writeXrefTable_eq tell hc) htab [] rfl).1⟩

theorem xrefStream_decodes_gapPositions :
    gapPositions.items ≠ [] ∧ (gapPositions.keys.map Reference.idnum).Nodup ∧
    (∀ r o, (r, o) ∈ gapPositions.items → 1 ≤ r.idnum ∧ o < 2 ^ 64 ∧ r.generation < 2 ^ 16) ∧
    ∃ index data, XRefStream.writeToStream xrefStreamInit gapPositions none =
        .ok (.dictionary (setEntry xrefStreamInit "/Index"
          (.array (index.map fun (n : Nat) => .number n))) (some data)) ∧
      (∃ pairs : List (Nat × Nat), index = 0 :: 1 :: pairs.flatMap (fun p => [p.1, p.2]) ∧
        data.length = 11 * (1 + (pairs.map Prod.snd).sum)) ∧
      ∃ es, decodeXrefStream index data = some es ∧ (es.map Prod.fst).Nodup ∧
        (∀ n e, (n, e) ∈ es ↔ (n = 0 ∧ e = .free 0 65535) ∨
          ∃ r o, (r, o) ∈ gapPositions.items ∧ r.idnum = n ∧ e = .inUse o r.generation) ∧
        (∀ n a b, (n, XrefEntry.compressed a b) ∉ es) ∧
        ((∀ r o, (r, o) ∈ gapPositions.items → o < 10 ^ 10) → ∀ tell, ∃ bytes,
          writeXrefTable tell gapPositions = .ok (bytes, tell) ∧
            readXrefTable bytes = some (es, [])) := by
  have hpos : ∀ r o, (r, o) ∈ gapPositions.items →
      1 ≤ r.idnum ∧ o < 2 ^ 64 ∧ r.generation < 2 ^ 16 := fun r o h => by
    rcases mem_gapPositions h with ⟨rfl, rfl⟩ | ⟨rfl, rfl⟩ <;> decide
  exact ⟨by decide, by decide, hpos,
    xrefStream_decodes xrefStreamInit gapPositions (by decide) (by decide) hpos⟩

/-- An offset of eleven digits: the stream still describes it, while the table's entry for it
is wider than twenty bytes and the table no longer reads back. -/
theorem table_entry_overflows_ten_digits :
    XRefStream.writeToStream [] ⟨[(⟨0, 1⟩, 10 ^ 10)], by decide⟩ none =
        .ok (.dictionary [("/Index", .array [.number 0, .number 1, .number 1, .number 1])]
          (some (nullRecord ++ record (10 ^ 10, 0)))) ∧
      decodeXrefStream [0, 1, 1, 1] (nullRecord ++ record (10 ^ 10, 0)) =
        some [(0, .free 0 65535), (1, .inUse (10 ^ 10) 0)] ∧
      ∃ bytes, writeXrefTable 0 ⟨[(⟨0, 1⟩, 10 ^ 10)], by decide⟩ = .ok (bytes, 0) ∧
        readXrefTable bytes = none :=
  ⟨rfl, by decide, _, rfl, by decide⟩

end PyHanko
