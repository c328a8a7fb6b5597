import PyHanko.Xref.Stream
import PyHanko.Writer.Basic
import PyHanko.Writer.Key

/-!
# Writing the document

`write(stream)` writes the header, then every object of `objects` in key order, recording in
`object_positions` the offset at which each definition `<idnum> <generation> obj … endobj`
begins, then the cross-reference section, then `startxref` and the section's offset. The
section is the classic table followed by `trailer` and the trailer dictionary or, with
`stream_xrefs`, a cross-reference stream: an object numbered `_lastobj_id + 1` that serves as
the trailer and whose own offset enters `object_positions` just before it is encoded.

`pdf_utils.generic` is not among the sources, so how an object serializes itself is a parameter
of the model (`Serializer`), as are MD5 and the bytes `_write_header` writes. A stream is the
offset it stood at and the bytes written since; `tell()` is their sum. Filters
(`trailer.compress()`) are the serializer's business: it is handed the payload unencoded.

The second half lays the output out for a writer that encrypts nothing and whose keys are
already in order: the definitions one after another, then a section described by
`XrefSection` (its subsection pairs, its trailer entries, and what reading it back gives).
-/

namespace PyHanko

set_option autoImplicit false

/-- How `obj.write_to_stream(stream, key)` serializes an object under an encryption key. -/
abbrev Serializer := PdfObject → Option (List UInt8) → List UInt8

/-- A binary output stream: the offset it stood at when `write` began, and the bytes written
since. -/
structure OutStream where
  start : Nat
  written : List UInt8

namespace OutStream

/-- `stream.tell()`. -/
def tell (s : OutStream) : Nat := s.start + s.written.length

/-- `stream.write(bs)`. -/
def write (s : OutStream) (bs : List UInt8) : OutStream := ⟨s.start, s.written ++ bs⟩

@[simp] theorem write_written (s : OutStream) (bs : List UInt8) :
    (s.write bs).written = s.written ++ bs := rfl

@[simp] theorem write_write (s : OutStream) (a b : List UInt8) :
    (s.write a).write b = s.write (a ++ b) := by simp [write]

@[simp] theorem write_start (s : OutStream) (bs : List UInt8) : (s.write bs).start = s.start := rfl

@[simp] theorem write_nil (s : OutStream) : s.write [] = s := by simp [write]

@[simp] theorem tell_write (s : OutStream) (bs : List UInt8) :
    (s.write bs).tell = s.tell + bs.length := by simp [tell, write, Nat.add_assoc]

end OutStream

/-- `('%d %d obj' % (idnum, generation)).encode('ascii')`. -/
def objectHeader (idnum generation : Nat) : List UInt8 :=
  ascii (decimal idnum ++ " " ++ decimal generation ++ " obj")

/-- One definition as `_write_objects` writes it: header, serialized body, `endobj`. -/
def objectDefinition (ser : Serializer) (key : Option (List UInt8)) (ix : Reference)
    (obj : PdfObject) : List UInt8 :=
  objectHeader ix.idnum ix.generation ++ ser obj key ++ ascii "\nendobj\n"

/-- Python's order on the keys of `objects`, the tuples `(generation, idnum)`. -/
def Reference.KeyLe (a b : Reference) : Prop :=
  a.generation < b.generation ∨ (a.generation = b.generation ∧ a.idnum ≤ b.idnum)

instance : DecidableRel Reference.KeyLe := fun _ _ => inferInstanceAs (Decidable (_ ∨ _))

/-- `sorted(self.objects.keys())`, each key taken with its object. -/
def sortedObjects (objs : Objects) : List (Reference × PdfObject) :=
  objs.items.insertionSort fun a b => a.1.KeyLe b.1

/-- `'\nstartxref\n%s\n' % xref_location`, then the end-of-file marker. -/
def startxrefTail (xrefLocation : Nat) : List UInt8 :=
  ascii ("\nstartxref\n" ++ decimal xrefLocation ++ "\n") ++ ascii "%%EOF\n"

/-- `PdfFileWriter._write_header`: the version line for `output_version = (1, 7)` and a
comment of non-ASCII bytes; the base class writes nothing. -/
def pdfFileWriterHeader : List UInt8 :=
  ascii ("%PDF-" ++ decimal 1 ++ "." ++ decimal 7 ++ "\n") ++
    [37, 0xc2, 0xa5, 0xc2, 0xb1, 0xc3, 0xab, 10]

namespace BasePdfFileWriter

/-- The key `_write_objects` hands the object `ix`: `_derive_key` when the document is
encrypted, except for the encryption dictionary itself (`None + bytes` raises `TypeError`). -/
def objectKey (md5 : List UInt8 → List UInt8) (w : BasePdfFileWriter) (ix : Reference) :
    Except PdfError (Option (List UInt8)) :=
  match w.encrypt with
  | some encryptIdnum =>
    if ix.idnum ≠ encryptIdnum then
      match w.encryptKey with
      | some k => some <$> deriveKey md5 k ix.idnum ix.generation
      | none => .error .typeError
    else .ok none
  | none => .ok none

/-- The loop of `_write_objects(stream, object_position_dict)` over the sorted items. -/
def writeObjects (ser : Serializer) (md5 : List UInt8 → List UInt8) (w : BasePdfFileWriter) :
    List (Reference × PdfObject) → OutStream → Positions →
      Except PdfError (OutStream × Positions)
  | [], s, positions => .ok (s, positions)
  | (ix, obj) :: rest, s, positions => do
    let positions := positions.set ix s.tell
    let s := s.write (objectHeader ix.idnum ix.generation)
    let key ← w.objectKey md5 ix
    let s := (s.write (ser obj key)).write (ascii "\nendobj\n")
    writeObjects ser md5 w rest s positions

/-- `_populate_trailer(trailer)` on the trailer's entries. -/
def populateTrailer (w : BasePdfFileWriter) (trailer : Entries) : Entries :=
  let trailer := setEntry trailer "/Root" (.indirect w.root)
  let trailer := match w.info with
    | some info => setEntry trailer "/Info" (.indirect info)
    | none => trailer
  setEntry trailer "/ID" w.documentId

theorem lookup_populateTrailer (w : BasePdfFileWriter) (trailer : Entries) {k : String}
    (h₁ : k ≠ "/Root") (h₂ : k ≠ "/Info") (h₃ : k ≠ "/ID") :
    (w.populateTrailer trailer).lookup k = trailer.lookup k := by
  unfold populateTrailer
  split <;> simp only [lookup_setEntry_of_ne _ _ h₁, lookup_setEntry_of_ne _ _ h₂,
    lookup_setEntry_of_ne _ _ h₃]

theorem lookup_streamTrailer_W (w : BasePdfFileWriter) (v : PdfObject) :
    (setEntry (w.populateTrailer xrefStreamInit) "/Size" v).lookup "/W" =
      some (.array [.number 1, .number 8, .number 2]) := by
  rw [lookup_setEntry_of_ne _ _ (by decide), lookup_populateTrailer _ _ (by decide) (by decide)
    (by decide)]
  rfl

/-- `write(stream)` on a stream standing at offset `tell`, where `_write_header` writes
`header`: the bytes appended. -/
def write (ser : Serializer) (md5 : List UInt8 → List UInt8) (header : List UInt8)
    (w : BasePdfFileWriter) (tell : Nat) : Except PdfError (List UInt8) := do
  let trailer := w.populateTrailer (if w.streamXrefs then xrefStreamInit else [])
  let (s, objectPositions) ←
    w.writeObjects ser md5 (sortedObjects w.objects) ((⟨tell, []⟩ : OutStream).write header)
      .empty
  if w.streamXrefs then
    let xrefLocation := s.tell
    let xrefsId := w.lastobjId + 1
    let objectPositions := objectPositions.set ⟨0, xrefsId⟩ xrefLocation
    let trailer := setEntry trailer "/Size" (.number (xrefsId + 1))
    let s := s.write (objectHeader xrefsId 0)
    let xrefStream ← XRefStream.writeToStream trailer objectPositions none
    let s := (s.write (ser xrefStream none)).write (ascii "\nendobj\n")
    return (s.write (startxrefTail xrefLocation)).written
  else
    let (table, xrefLocation) ← writeXrefTable s.tell objectPositions
    let s := s.write table
    let trailer := setEntry trailer "/Size" (.number (w.lastobjId + 1))
    let s := (s.write (ascii "trailer\n")).write (ser (.dictionary trailer none) none)
    return (s.write (startxrefTail xrefLocation)).written

end BasePdfFileWriter

/-! ### The objects, laid out -/

/-- The definitions of `items`, unencrypted, one after another. -/
def objectDefinitions (ser : Serializer) (items : List (Reference × PdfObject)) : List UInt8 :=
  items.flatMap fun e => objectDefinition ser none e.1 e.2

/-- Where each definition of `items` begins when they are written one after another from
offset `tell`. -/
def definitionOffsets (ser : Serializer) : Nat → List (Reference × PdfObject) →
    List (Reference × Nat)
  | _, [] => []
  | tell, (ix, obj) :: rest =>
    (ix, tell) :: definitionOffsets ser (tell + (objectDefinition ser none ix obj).length) rest

@[simp] theorem objectDefinitions_nil (ser : Serializer) : objectDefinitions ser [] = [] := rfl

@[simp] theorem objectDefinitions_cons (ser : Serializer) (e : Reference × PdfObject)
    (items : List (Reference × PdfObject)) :
    objectDefinitions ser (e :: items) =
      objectDefinition ser none e.1 e.2 ++ objectDefinitions ser items := rfl

theorem map_fst_definitionOffsets (ser : Serializer) :
    ∀ (tell : Nat) (items : List (Reference × PdfObject)),
      (definitionOffsets ser tell items).map Prod.fst = items.map Prod.fst
  | _, [] => rfl
  | _, (_, _) :: rest => congrArg _ (map_fst_definitionOffsets ser _ rest)

theorem mem_definitionOffsets (ser : Serializer) :
    ∀ (tell : Nat) (items : List (Reference × PdfObject)) (r : Reference) (o : Nat),
      (r, o) ∈ definitionOffsets ser tell items ↔
        ∃ pre x post, items = pre ++ (r, x) :: post ∧ o = tell + (objectDefinitions ser pre).length
  | _, [], r, o => by simp [definitionOffsets]
  | tell, (ix, obj) :: rest, r, o => by
    rw [definitionOffsets, List.mem_cons, mem_definitionOffsets ser _ rest, Prod.mk.injEq]
    constructor
    · rintro (⟨rfl, rfl⟩ | ⟨pre, x, post, rfl, rfl⟩)
      · exact ⟨[], obj, rest, rfl, rfl⟩
      · exact ⟨(ix, obj) :: pre, x, post, rfl, by simp [Nat.add_assoc]⟩
    · rintro ⟨pre, x, post, h, rfl⟩
      cases pre with
      | nil =>
        obtain ⟨⟨rfl, rfl⟩, rfl⟩ := List.cons.inj h
        exact .inl ⟨rfl, rfl⟩
      | cons p pre =>
        obtain ⟨rfl, rfl⟩ := List.cons.inj h
        exact .inr ⟨pre, x, post, rfl, by simp [Nat.add_assoc]⟩

theorem le_of_mem_definitionOffsets {ser : Serializer} {tell : Nat}
    {items : List (Reference × PdfObject)} {r : Reference} {o : Nat}
    (h : (r, o) ∈ definitionOffsets ser tell items) :
    o ≤ tell + (objectDefinitions ser items).length := by
  obtain ⟨pre, x, post, rfl, rfl⟩ := (mem_definitionOffsets ser tell items r o).mp h
  simp [objectDefinitions, List.flatMap_append]

namespace BasePdfFileWriter

variable (ser : Serializer) (md5 : List UInt8 → List UInt8) {w : BasePdfFileWriter}

theorem objectKey_of_encrypt_none (h : w.encrypt = none) (ix : Reference) :
    w.objectKey md5 ix = .ok none := by
  simp [objectKey, h]

/-- Unencrypted, `_write_objects` writes the definitions one after another and records each
one's offset after what the position dictionary already held. -/
theorem writeObjects_eq (h : w.encrypt = none) :
    ∀ (items : List (Reference × PdfObject)) (s : OutStream) (positions : Positions),
      (items.map Prod.fst).Nodup → (∀ e ∈ items, e.1 ∉ positions.keys) →
      ∃ positions', w.writeObjects ser md5 items s positions =
          .ok (s.write (objectDefinitions ser items), positions') ∧
        positions'.items = positions.items ++ definitionOffsets ser s.tell items
  | [], s, positions, _, _ => ⟨positions, by simp [writeObjects], by simp [definitionOffsets]⟩
  | (ix, obj) :: rest, s, positions, hnodup, hfresh => by
    rw [List.map_cons, List.nodup_cons] at hnodup
    have hix : ix ∉ positions.keys := hfresh _ (List.mem_cons_self _ _)
    have hrest : ∀ e ∈ rest, e.1 ∉ (positions.set ix s.tell).keys := by
      intro e he
      rw [PyDict.keys_set_of_not_mem _ _ hix, List.mem_append, List.mem_singleton, not_or]
      exact ⟨hfresh e (List.mem_cons_of_mem _ he),
        fun h => hnodup.1 (List.mem_map.mpr ⟨e, he, h⟩)⟩
    obtain ⟨positions', hw, hp⟩ := writeObjects_eq h rest
      (((s.write (objectHeader ix.idnum ix.generation)).write (ser obj none)).write
        (ascii "\nendobj\n")) (positions.set ix s.tell) hnodup.2 hrest
    refine ⟨positions', ?_, ?_⟩
    · simp only [writeObjects, objectKey_of_encrypt_none md5 h, bind, Except.bind]
      rw [hw]
      simp [objectDefinition]
    · rw [hp, PyDict.items_set_of_not_mem _ _ hix, definitionOffsets]
      simp [objectDefinition, Nat.add_assoc]

end BasePdfFileWriter

/-! ### The cross-reference section, laid out -/

/-- A classic table's bytes: `xref`, then each subsection's header and entries. -/
def tableBytes (subs : List (Nat × List (List UInt8))) : List UInt8 :=
  ascii "xref\n" ++ subs.flatMap fun s => subsectionHeader s.1 s.2.length ++ s.2.flatten

/-- Read a whole classic table. -/
def decodeXrefTable (bs : List UInt8) : Option (List (Nat × XrefEntry)) :=
  match readXrefTable bs with
  | some (es, []) => some es
  | _ => none

/-- The object numbers subsection headers `first count` list: `first, …, first + count - 1`. -/
def listedNumbers (pairs : List (Nat × Nat)) : List Nat :=
  pairs.flatMap fun p => List.range' p.1 p.2

/-- The cross-reference section `write` emits after the objects. `pairs` are its subsection
headers `first count`, `trailer` the entries of its trailer dictionary, and `decoded` what
reading it by its own format gives. A classic table is `xref`, the subsections, `trailer` and
the trailer dictionary. A cross-reference stream is the object `xrefNum` with `/W [1 8 2]`,
whose `/Index` holds the pairs and whose payload holds the records. -/
inductive XrefSection (ser : Serializer) (xrefNum : Nat) :
    Bool → List UInt8 → List (Nat × Nat) → Entries → Option (List (Nat × XrefEntry)) → Prop
  | table (subs : List (Nat × List (List UInt8))) (trailer : Entries) :
      XrefSection ser xrefNum false
        (tableBytes subs ++ ascii "trailer\n" ++ ser (.dictionary trailer none) none)
        (subs.map fun s => (s.1, s.2.length)) trailer (decodeXrefTable (tableBytes subs))
  | stream (pairs : List (Nat × Nat)) (entries : Entries) (data : List UInt8) :
      entries.lookup "/W" = some (.array [.number 1, .number 8, .number 2]) →
      entries.lookup "/Index" =
        some (.array ((pairs.flatMap fun p => [p.1, p.2]).map fun (n : Nat) => .number n)) →
      XrefSection ser xrefNum true
        (objectHeader xrefNum 0 ++ ser (.dictionary entries (some data)) none ++
          ascii "\nendobj\n")
        pairs entries (decodeXrefStream (pairs.flatMap fun p => [p.1, p.2]) data)

theorem listedNumbers_map {β : Type} (l : List (Nat × List β)) :
    listedNumbers (l.map fun s => (s.1, s.2.length)) =
      (l.flatMap fun s => s.2.enumFrom s.1).map Prod.fst := by
  simp [listedNumbers, List.map_flatMap, List.flatMap_map, List.enumFrom_map_fst]

theorem listedNumbers_chunks {positions : Positions} {cs : List XrefChunk}
    (h : contiguousXrefChunks positions = .ok cs) :
    listedNumbers (cs.map fun ch => (ch.1, ch.2.length)) =
      (sortedById positions).map (·.1.idnum) := by
  rw [listedNumbers_map]
  change (cs.flatMap chunkEntries).map _ = _
  rw [flatMap_contiguousXrefChunks h, List.map_map]
  rfl

variable (ser : Serializer) (xrefNum : Nat)

theorem items_ne_nil_of_writeXrefTable {positions : Positions} {tell : Nat}
    {r : List UInt8 × Nat} (h : writeXrefTable tell positions = .ok r) : positions.items ≠ [] := by
  intro he
  have hs : sortedById positions = [] := by simp [sortedById, he]
  simp [writeXrefTable, contiguousXrefChunks, hs, peekFirstId, bind, Except.bind] at h

theorem xrefSection_of_writeXrefTable {positions : Positions} {tell loc : Nat} {t : List UInt8}
    (h : writeXrefTable tell positions = .ok (t, loc)) (trailer : Entries) :
    loc = tell ∧ ∃ pairs, XrefSection ser xrefNum false
        (t ++ ascii "trailer\n" ++ ser (.dictionary trailer none) none) pairs trailer
        (decodeXrefTable t) ∧
      listedNumbers pairs = 0 :: (sortedById positions).map (·.1.idnum) := by
  cases hc : contiguousXrefChunks positions with
  | error e => simp [writeXrefTable, hc, bind, Except.bind] at h
  | ok cs =>
    match cs, hc with
    | [], hc => simp [writeXrefTable, hc, bind, Except.bind] at h
    | (first, c) :: chs, hc =>
      rw [writeXrefTable_eq tell hc, Except.ok.injEq, Prod.mk.injEq] at h
      obtain ⟨rfl, rfl⟩ := h
      let subs := (tableSubsections ((first, c) :: chs)).map fun s => (s.1, s.2.map Prod.fst)
      have ht : ascii "xref\n" ++ (tableSubsections ((first, c) :: chs)).flatMap
          Subsection.bytes = tableBytes subs := by
        simp [tableBytes, subs, List.flatMap_map]; rfl
      refine ⟨rfl, subs.map fun s => (s.1, s.2.length), ht ▸ .table subs trailer, ?_⟩
      have hl := congrArg (List.map Prod.fst) (entries_tableSubsections first c chs)
      rw [← listedNumbers_chunks hc, listedNumbers_map] at *
      simp only [List.map_cons, List.map_map] at hl
      simp only [subs, List.flatMap_map, List.length_map]
      rw [listedNumbers_map]
      simpa [Subsection.entries, List.map_flatMap, List.enumFrom_map_fst, inUseOf,
        Function.comp_def, chunkEntries] using hl

theorem xrefStreamContent_index {positions : Positions} {index : List Nat} {data : List UInt8}
    (h : xrefStreamContent positions = .ok (index, data)) :
    ∃ chunks, contiguousXrefChunks positions = .ok chunks ∧
      index = [0, 1] ++ chunks.flatMap fun ch => [ch.1, ch.2.length] := by
  unfold xrefStreamContent at h
  cases hc : contiguousXrefChunks positions with
  | error e => simp [hc, bind, Except.bind] at h
  | ok chunks =>
    simp only [hc, bind, Except.bind] at h
    split at h
    · cases h
    · simp only [pure, Except.pure, Except.ok.injEq, Prod.mk.injEq] at h
      exact ⟨chunks, rfl, h.1.symm⟩

theorem writeToStream_none (entries : Entries) (positions : Positions) :
    XRefStream.writeToStream entries positions none = (xrefStreamContent positions).map fun c =>
      .dictionary (setEntry entries "/Index" (.array (c.1.map fun (n : Nat) => .number n)))
        (some c.2) := by
  simp only [XRefStream.writeToStream, Option.isSome_none, Bool.false_eq_true, if_false,
    bind, Except.bind, pure, Except.pure]
  cases xrefStreamContent positions <;> rfl

/-- The stream object built from an `/Index` and a payload `xrefStreamContent` computed, on
entries that carry `/W [1 8 2]`, makes a stream section listing object 0 and the identities'
numbers. -/
theorem xrefSection_of_xrefStreamContent {entries : Entries} {positions : Positions}
    {index : List Nat} {data : List UInt8} (h : xrefStreamContent positions = .ok (index, data))
    (hW : entries.lookup "/W" = some (.array [.number 1, .number 8, .number 2])) :
    ∃ pairs, XrefSection ser xrefNum true
        (objectHeader xrefNum 0 ++ ser (.dictionary (setEntry entries "/Index"
          (.array (index.map fun (n : Nat) => .number n))) (some data)) none ++
          ascii "\nendobj\n")
        pairs (setEntry entries "/Index" (.array (index.map fun (n : Nat) => .number n)))
        (decodeXrefStream index data) ∧
      listedNumbers pairs = 0 :: (sortedById positions).map (·.1.idnum) := by
  obtain ⟨chunks, hch, rfl⟩ := xrefStreamContent_index h
  have hpairs : ((0, 1) :: chunks.map fun ch => (ch.1, ch.2.length)).flatMap
      (fun p => [p.1, p.2]) = [0, 1] ++ chunks.flatMap fun ch => [ch.1, ch.2.length] := by
    simp [List.flatMap_map]
  refine ⟨(0, 1) :: chunks.map fun ch => (ch.1, ch.2.length), ?_, ?_⟩
  · rw [← hpairs]
    exact .stream _ _ _ ((lookup_setEntry_of_ne _ _ (by decide)).trans hW)
      (lookup_setEntry_self _ _ _)
  · rw [listedNumbers, List.flatMap_cons, ← listedNumbers, listedNumbers_chunks hch]
    rfl

/-! ### `write`, laid out -/

namespace BasePdfFileWriter

variable (header : List UInt8) (tell : Nat) {w : BasePdfFileWriter}

/-- For a writer that encrypts nothing and whose keys are already in order: the definitions
follow the header, the position dictionary holds their offsets, and the section is built from
it at the offset where the definitions end. -/
theorem write_eq (md5 : List UInt8 → List UInt8) (h : w.encrypt = none)
    (hsorted : sortedObjects w.objects = w.objects.items) :
    ∃ P : Positions, P.items = definitionOffsets ser (tell + header.length) w.objects.items ∧
      w.write ser md5 header tell =
        if w.streamXrefs then
          (XRefStream.writeToStream
              (setEntry (w.populateTrailer xrefStreamInit) "/Size" (.number (↑(w.lastobjId + 1) + 1)))
              (P.set ⟨0, w.lastobjId + 1⟩
                (tell + (header ++ objectDefinitions ser w.objects.items).length)) none).map
            fun x => header ++ objectDefinitions ser w.objects.items ++
              (objectHeader (w.lastobjId + 1) 0 ++ ser x none ++ ascii "\nendobj\n") ++
              startxrefTail (tell + (header ++ objectDefinitions ser w.objects.items).length)
        else
          (writeXrefTable (tell + (header ++ objectDefinitions ser w.objects.items).length) P).map
            fun r => header ++ objectDefinitions ser w.objects.items ++
              (r.1 ++ ascii "trailer\n" ++ ser (.dictionary (setEntry (w.populateTrailer [])
                "/Size" (.number (w.lastobjId + 1))) none) none) ++
              startxrefTail r.2 := by
  obtain ⟨P, hw, hp⟩ := writeObjects_eq ser md5 h w.objects.items
    ((⟨tell, []⟩ : OutStream).write header) .empty w.objects.nodup
    (by simp [PyDict.empty, PyDict.keys])
  refine ⟨P, by simpa [OutStream.tell, PyDict.empty] using hp, ?_⟩
  have ht : ((⟨tell, []⟩ : OutStream).write header).tell = tell + header.length := by
    simp [OutStream.tell]
  simp only [write, hsorted, hw, bind, Except.bind, OutStream.tell_write, ht, List.length_append,
    Nat.add_assoc, Nat.cast_add, Nat.cast_one]
  cases w.streamXrefs <;> simp only [if_true, if_false, Bool.false_eq_true] <;>
    split <;> rename_i hx <;> simp [hx, Except.map, pure, Except.pure]

end BasePdfFileWriter

end PyHanko
