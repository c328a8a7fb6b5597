import PyHanko.Writer.Write
import PyHanko.Writer.Annotation
import PyHanko.PageTree.Insert

/-!
# Runs of the writer

The writers a program can build: `BasePdfFileWriter(...)` or `PdfFileWriter()`, followed by any
sequence of `add_object`, `insert_page` and `register_annotation` calls, each ending however it
ends (Python keeps what a raising call mutated). Every such writer keeps the allocator's
invariant and encrypts nothing, since nothing in these sources sets `_encrypt`.

From that, `write` lays its output out as the definitions of the objects `(0, i)` in ascending
`i`, then a cross-reference section: its subsections list object 0 and every allocated number
(and, in stream mode, the stream's own), its trailer's `/Size` is one more than the greatest of
them, and, while the offsets fit the section's fields, it reads back to the offsets of the
definitions.
-/

namespace PyHanko

set_option autoImplicit false

/-! ### What each operation does to the writer -/

theorem increaseCounts_keys : ∀ (fuel : Nat) (objs : Objects) (l : Loc),
    (increaseCounts fuel objs l).2.keys = objs.keys
  | 0, _, _ => rfl
  | fuel + 1, objs, l => by
    unfold increaseCounts
    split
    · rfl
    · dsimp only
      split
      · simp
      · simp
      · rw [increaseCounts_keys]; simp

namespace BasePdfFileWriter

theorem insertNewPage_frame (w : BasePdfFileWriter) (newPage : PdfObject) (plan : InsertPlan) :
    ∃ (objs : Objects) (u : List PdfObject),
      (w.insertNewPage newPage plan).2 =
        { (w.addObject newPage).1 with objects := objs, updated := u } ∧
      objs.keys = (w.addObject newPage).1.objects.keys := by
  unfold insertNewPage
  dsimp only
  split
  · exact ⟨_, _, rfl, rfl⟩
  · rename_i objs h
    have hk : (objs.modifyAt (Loc.top ⟨0, w.lastobjId + 1⟩)
        (·.setItem "/Parent" plan.pagesObjRef)).keys = (w.addObject newPage).1.objects.keys := by
      rw [Objects.keys_modifyAt, Objects.keys_of_mutateArray h]
    split
    · split
      · exact ⟨_, _, rfl, hk⟩
      · exact ⟨_, _, rfl, hk⟩
    · exact ⟨_, _, rfl, hk⟩

/-- Whatever it ends in, `insert_page` changes only `objects`, `_lastobj_id` and the update
log: either nothing was allocated and the keys are as they were, or one `add_object` ran on
objects with the same keys. -/
theorem insertPage_frame (fuel : Nat) (w : BasePdfFileWriter) (newPage : PdfObject)
    (after : Option Int) :
    ∃ (objs : Objects) (n : Nat) (u : List PdfObject),
      (w.insertPage fuel newPage after).2 =
        { w with objects := objs, lastobjId := n, updated := u } ∧
      ((objs.keys = w.objects.keys ∧ n = w.lastobjId) ∨
        ∃ objs₁ : Objects, objs₁.keys = w.objects.keys ∧
          objs.keys = (objs₁.set ⟨0, w.lastobjId + 1⟩ newPage).keys ∧ n = w.lastobjId + 1) := by
  unfold insertPage
  split
  · exact ⟨_, _, _, rfl, .inl ⟨rfl, rfl⟩⟩
  · exact ⟨_, _, _, rfl, .inl ⟨rfl, rfl⟩⟩
  · rename_i plan _
    have hk := increaseCounts_keys fuel w.objects plan.pagesLoc
    split
    · rename_i objs h
      rw [h] at hk
      obtain ⟨objs', u, hw, hk'⟩ := insertNewPage_frame { w with objects := objs } newPage plan
      exact ⟨objs', _, u, hw, .inr ⟨objs, hk, hk', rfl⟩⟩
    · rename_i objs h
      rw [h] at hk
      exact ⟨_, _, _, rfl, .inl ⟨hk, rfl⟩⟩
    · rename_i objs h
      rw [h] at hk
      exact ⟨_, _, _, rfl, .inl ⟨hk, rfl⟩⟩

end BasePdfFileWriter

theorem AllocInv.insertPage {start : Nat} {w : BasePdfFileWriter} (h : AllocInv start w)
    (fuel : Nat) (newPage : PdfObject) (after : Option Int) :
    AllocInv start (w.insertPage fuel newPage after).2 := by
  obtain ⟨objs, n, u, hw, hk | ⟨objs₁, hk₁, hk, rfl⟩⟩ :=
    BasePdfFileWriter.insertPage_frame fuel w newPage after
  · rw [hw]
    exact h.of_keys hk.1 hk.2
  · rw [hw]
    have h₁ : AllocInv start { w with objects := objs₁ } := h.of_keys hk₁ rfl
    exact (h₁.addObject newPage).of_keys hk rfl

/-! ### Reachable writers -/

/-- The writers reachable from `BasePdfFileWriter(root, info, document_id, obj_id_start,
stream_xrefs)` with `obj_id_start = start`, or from `PdfFileWriter()` with `start = 0`, by calls
to `add_object`, `insert_page` and `register_annotation`, whatever each call ends in. -/
inductive Reachable : Nat → BasePdfFileWriter → Prop
  | init (root : PdfObject) (info : Option PdfObject) (documentId : PdfObject) (start : Nat)
      (streamXrefs : Bool) :
      Reachable start (BasePdfFileWriter.init root info documentId start streamXrefs)
  | pdfFileWriter (documentId : PdfObject) : Reachable 0 (pdfFileWriter documentId)
  | addObject {start : Nat} {w : BasePdfFileWriter} (obj : PdfObject) :
      Reachable start w → Reachable start (w.addObject obj).1
  | insertPage {start : Nat} {w : BasePdfFileWriter} (fuel : Nat) (newPage : PdfObject)
      (after : Option Int) :
      Reachable start w → Reachable start (w.insertPage fuel newPage after).2
  | registerAnnotation {start : Nat} {w : BasePdfFileWriter} (pageRef : Reference)
      (annotRef : PdfObject) :
      Reachable start w → Reachable start (Prod.snd <| w.registerAnnotation pageRef annotRef)

/-- What every reachable writer satisfies: the allocator's invariant, and no encryption. -/
structure RunInv (start : Nat) (w : BasePdfFileWriter) : Prop where
  alloc : AllocInv start w
  unencrypted : w.encrypt = none

namespace RunInv

variable {start : Nat} {w : BasePdfFileWriter}

theorem init (root : PdfObject) (info : Option PdfObject) (documentId : PdfObject) (start : Nat)
    (streamXrefs : Bool) :
    RunInv start (BasePdfFileWriter.init root info documentId start streamXrefs) := by
  have h₀ : RunInv start ⟨.empty, start, ⟨0, 0⟩, none, none, none, documentId, streamXrefs, []⟩ :=
    ⟨⟨le_rfl, by simp [PyDict.empty, PyDict.keys]⟩, rfl⟩
  unfold BasePdfFileWriter.init
  dsimp only
  -- `info` is absent, a reference or an object; then `root` is a reference or an object
  split <;> split
  · exact ⟨h₀.alloc, rfl⟩
  · exact ⟨h₀.alloc.addObject _, rfl⟩
  · exact ⟨h₀.alloc, rfl⟩
  · exact ⟨h₀.alloc.addObject _, rfl⟩
  · exact ⟨h₀.alloc.addObject _, rfl⟩
  · exact ⟨(h₀.alloc.addObject _).addObject _, rfl⟩

theorem pdfFileWriter (documentId : PdfObject) : RunInv 0 (pdfFileWriter documentId) := by
  have h := (RunInv.init (.dictionary [("/Type", .name "/Catalog")] none)
    (some (.dictionary [("/Producer", .string "pdfstamp")] none)) documentId 0 true).alloc
  exact ⟨(h.addObject _).of_keys (PyDict.keys_modify _ _ _) rfl, rfl⟩

theorem addObject (h : RunInv start w) (obj : PdfObject) : RunInv start (w.addObject obj).1 :=
  ⟨h.alloc.addObject obj, h.unencrypted⟩

theorem insertPage (h : RunInv start w) (fuel : Nat) (newPage : PdfObject) (after : Option Int) :
    RunInv start (w.insertPage fuel newPage after).2 := by
  obtain ⟨objs, n, u, hw, -⟩ := BasePdfFileWriter.insertPage_frame fuel w newPage after
  exact ⟨h.alloc.insertPage fuel newPage after, by rw [hw]; exact h.unencrypted⟩

theorem registerAnnotation (h : RunInv start w) (pageRef : Reference) (annotRef : PdfObject) :
    RunInv start (Prod.snd <| w.registerAnnotation pageRef annotRef) := by
  obtain ⟨objs, u, hw, hk⟩ := BasePdfFileWriter.registerAnnotation_frame w pageRef annotRef
  rw [hw]
  exact ⟨h.alloc.of_keys hk rfl, h.unencrypted⟩

end RunInv

theorem Reachable.runInv {start : Nat} {w : BasePdfFileWriter} (h : Reachable start w) :
    RunInv start w := by
  induction h with
  | init root info documentId start streamXrefs => exact .init root info documentId start streamXrefs
  | pdfFileWriter documentId => exact .pdfFileWriter documentId
  | addObject obj _ ih => exact ih.addObject obj
  | insertPage fuel newPage after _ ih => exact ih.insertPage fuel newPage after
  | registerAnnotation pageRef annotRef _ ih => exact RunInv.registerAnnotation ih pageRef annotRef

/-! ### The layout of `write` for a reachable writer -/

namespace AllocInv

variable {start : Nat} {w : BasePdfFileWriter}

theorem sortedObjects_eq (h : AllocInv start w) : sortedObjects w.objects = w.objects.items := by
  apply List.Sorted.insertionSort_eq
  have hk : (w.objects.items.map Prod.fst).Pairwise Reference.KeyLe := by
    rw [show w.objects.items.map Prod.fst = w.objects.keys from rfl, h.2, List.pairwise_map]
    exact (List.pairwise_lt_range' _ _).imp fun hij => .inr ⟨rfl, Nat.le_of_lt hij⟩
  exact List.pairwise_map.mp hk

theorem mem_items (h : AllocInv start w) {r : Reference} {o : PdfObject}
    (hr : (r, o) ∈ w.objects.items) :
    r.generation = 0 ∧ start < r.idnum ∧ r.idnum ≤ w.lastobjId :=
  (h.mem_keys r).mp (List.mem_map_of_mem Prod.fst hr)

end AllocInv

section Positions

variable {P : Positions} {a n : Nat}

theorem sortedById_of_keys (h : P.keys = (List.range' a n).map fun i => ⟨0, i⟩) :
    (sortedById P).map (·.1.idnum) = List.range' a n := by
  have hs : sortedById P = P.items := by
    apply List.Sorted.insertionSort_eq
    have hk : (P.items.map Prod.fst).Pairwise fun r s : Reference => r.idnum ≤ s.idnum := by
      rw [show P.items.map Prod.fst = P.keys from rfl, h, List.pairwise_map]
      exact List.pairwise_le_range' _ _
    have := List.pairwise_map.mp hk
    exact this
  have := congrArg (List.map Reference.idnum) h
  simpa [hs, PyDict.keys, List.map_map, Function.comp_def] using this

theorem nodup_pos_of_keys (ha : 1 ≤ a) (h : P.keys = (List.range' a n).map fun i => ⟨0, i⟩) :
    (P.keys.map Reference.idnum).Nodup ∧ ∀ r o, (r, o) ∈ P.items → 1 ≤ r.idnum := by
  refine ⟨by simpa [h, List.map_map, Function.comp_def] using List.nodup_range' a n, ?_⟩
  intro r o hr
  have hk : r ∈ P.keys := List.mem_map_of_mem Prod.fst hr
  rw [h, List.mem_map] at hk
  obtain ⟨i, hi, rfl⟩ := hk
  rw [List.mem_range'_1] at hi
  exact Nat.le_trans ha hi.1

theorem listed_greatest (hn : 0 < n) {m : Nat} (hm : m + 1 = a + n) :
    m ∈ 0 :: List.range' a n ∧ ∀ k ∈ 0 :: List.range' a n, k ≤ m := by
  refine ⟨List.mem_cons_of_mem _ (List.mem_range'_1.mpr ⟨by omega, by omega⟩), ?_⟩
  intro k hk
  rcases List.mem_cons.mp hk with rfl | hk
  · exact Nat.zero_le _
  · have := List.mem_range'_1.mp hk; omega

end Positions

section Layout

variable {start : Nat} {w : BasePdfFileWriter} {ser : Serializer} {t : Nat} {P : Positions}

theorem positions_keys (h : AllocInv start w) (hP : P.items = definitionOffsets ser t w.objects.items) :
    P.keys = (List.range' (start + 1) (w.lastobjId - start)).map fun i => ⟨0, i⟩ := by
  rw [PyDict.keys, hP, map_fst_definitionOffsets]; exact h.2

theorem positions_set_keys (h : AllocInv start w)
    (hP : P.items = definitionOffsets ser t w.objects.items) (L : Nat) :
    (P.set ⟨0, w.lastobjId + 1⟩ L).items = P.items ++ [(⟨0, w.lastobjId + 1⟩, L)] ∧
    (P.set ⟨0, w.lastobjId + 1⟩ L).keys =
      (List.range' (start + 1) (w.lastobjId - start + 1)).map fun i => ⟨0, i⟩ := by
  have hfresh : (⟨0, w.lastobjId + 1⟩ : Reference) ∉ P.keys := by
    rw [positions_keys h hP, ← h.2]; exact h.next_fresh
  refine ⟨PyDict.items_set_of_not_mem _ _ hfresh, ?_⟩
  rw [PyDict.keys_set_of_not_mem _ _ hfresh, positions_keys h hP, List.range'_concat,
    List.map_append]
  have := h.1
  rw [Nat.one_mul, show start + 1 + (w.lastobjId - start) = w.lastobjId + 1 by omega]
  rfl

theorem mem_expectedEntries_offsets (h : AllocInv start w) (extra : List (Reference × Nat))
    (hP : P.items = definitionOffsets ser t w.objects.items ++ extra)
    (hextra : ∀ r o, (r, o) ∈ extra → r.generation = 0)
    (hids : (P.keys.map Reference.idnum).Nodup) (hpos : ∀ r o, (r, o) ∈ P.items → 1 ≤ r.idnum)
    (n : Nat) (e : XrefEntry) :
    (n, e) ∈ expectedEntries P ↔ (n = 0 ∧ e = .free 0 65535) ∨
      (∃ pre r obj post, w.objects.items = pre ++ (r, obj) :: post ∧ r.idnum = n ∧
        e = .inUse (t + (objectDefinitions ser pre).length) 0) ∨
      ∃ r o, (r, o) ∈ extra ∧ r.idnum = n ∧ e = .inUse o 0 := by
  rw [(expectedEntries_spec hids hpos).2, hP]
  apply or_congr_right
  constructor
  · rintro ⟨r, o, hro, rfl, rfl⟩
    rcases List.mem_append.mp hro with hro | hro
    · obtain ⟨pre, x, post, hi, rfl⟩ := (mem_definitionOffsets ser t _ r o).mp hro
      have hg := (h.mem_items (hi ▸ List.mem_append_right pre (List.mem_cons_self _ _))).1
      exact .inl ⟨pre, r, x, post, hi, rfl, by rw [hg]⟩
    · exact .inr ⟨r, o, hro, rfl, by rw [hextra r o hro]⟩
  · rintro (⟨pre, r, x, post, hi, rfl, rfl⟩ | ⟨r, o, hro, rfl, rfl⟩)
    · have hg := (h.mem_items (hi ▸ List.mem_append_right pre (List.mem_cons_self _ _))).1
      exact ⟨r, _, List.mem_append_left _ ((mem_definitionOffsets ser t _ r _).mpr
        ⟨pre, x, post, hi, rfl⟩), rfl, by rw [hg]⟩
    · exact ⟨r, o, List.mem_append_right _ hro, rfl, by rw [hextra r o hro]⟩

end Layout

section Write

variable {start : Nat} {w : BasePdfFileWriter} (ser : Serializer) (md5 : List UInt8 → List UInt8)
  (header : List UInt8) (tell : Nat)

/-- Classic table mode, offsets below `10 ^ 10`: `write` completes, and its table reads back to
the offsets of the definitions. -/
theorem write_table_layout (h : RunInv start w) (hs : w.streamXrefs = false)
    (hne : w.objects.items ≠ [])
    (hfit : tell + (header ++ objectDefinitions ser w.objects.items).length < 10 ^ 10) :
    ∃ (P : Positions) (xref : List UInt8) (pairs : List (Nat × Nat)) (trailer : Entries),
      P.items = definitionOffsets ser (tell + header.length) w.objects.items ∧
      w.write ser md5 header tell = .ok (header ++ objectDefinitions ser w.objects.items ++ xref ++
        startxrefTail (tell + (header ++ objectDefinitions ser w.objects.items).length)) ∧
      XrefSection ser (w.lastobjId + 1) false xref pairs trailer (some (expectedEntries P)) := by
  obtain ⟨P, hP, hwrite⟩ := BasePdfFileWriter.write_eq ser header tell md5 h.unencrypted
    h.alloc.sortedObjects_eq
  have hPne : P.items ≠ [] := by
    rw [hP, ← List.length_pos, ← List.length_map _ Prod.fst, map_fst_definitionOffsets,
      List.length_map, List.length_pos]
    exact hne
  have hfitP : ∀ r o, (r, o) ∈ P.items → FitsTable (o, r.generation) := by
    intro r o hro
    rw [hP] at hro
    obtain ⟨pre, x, post, hi, rfl⟩ := (mem_definitionOffsets ser _ _ r o).mp hro
    have hg := (h.alloc.mem_items (hi ▸ List.mem_append_right pre (List.mem_cons_self _ _))).1
    have hle := le_of_mem_definitionOffsets hro
    simp only [List.length_append] at hfit
    exact ⟨by omega, by rw [hg]; norm_num⟩
  obtain ⟨c, cs, hc⟩ := contiguousXrefChunks_ok hPne
  have ht := writeXrefTable_eq (tell + (header ++ objectDefinitions ser w.objects.items).length) hc
  obtain ⟨-, pairs, hsec, -⟩ := xrefSection_of_writeXrefTable ser (w.lastobjId + 1) ht
    (setEntry (w.populateTrailer []) "/Size" (.number (w.lastobjId + 1)))
  have hdec := (readXrefTable_writeXrefTable ht hfitP [] rfl).1
  rw [List.append_nil] at hdec
  refine ⟨P, _, pairs, _, hP, ?_, by rwa [decodeXrefTable, hdec] at hsec⟩
  simp only [hwrite, hs, ht]
  rfl

/-- Stream mode, offsets below `2 ^ 64`: `write` completes, and its stream, which gives its own
number the offset of its own header, reads back to the offsets of the definitions. -/
theorem write_stream_layout (h : RunInv start w) (hs : w.streamXrefs = true)
    (hfit : tell + (header ++ objectDefinitions ser w.objects.items).length < 2 ^ 64) :
    ∃ (P : Positions) (xref : List UInt8) (pairs : List (Nat × Nat)) (trailer : Entries),
      P.items = definitionOffsets ser (tell + header.length) w.objects.items ++
        [(⟨0, w.lastobjId + 1⟩, tell + (header ++ objectDefinitions ser w.objects.items).length)] ∧
      P.keys = (List.range' (start + 1) (w.lastobjId - start + 1)).map (fun i => ⟨0, i⟩) ∧
      w.write ser md5 header tell = .ok (header ++ objectDefinitions ser w.objects.items ++ xref ++
        startxrefTail (tell + (header ++ objectDefinitions ser w.objects.items).length)) ∧
      XrefSection ser (w.lastobjId + 1) true xref pairs trailer (some (expectedEntries P)) := by
  obtain ⟨P, hP, hwrite⟩ := BasePdfFileWriter.write_eq ser header tell md5 h.unencrypted
    h.alloc.sortedObjects_eq
  obtain ⟨hPs, hkeys⟩ := positions_set_keys h.alloc hP
    (tell + (header ++ objectDefinitions ser w.objects.items).length)
  rw [hP] at hPs
  have hfitP : ∀ r o, (r, o) ∈ (P.set ⟨0, w.lastobjId + 1⟩
      (tell + (header ++ objectDefinitions ser w.objects.items).length)).items →
      FitsStream (o, r.generation) := by
    intro r o hro
    rw [hPs] at hro
    simp only [List.length_append] at hfit
    rcases List.mem_append.mp hro with hro | hro
    · obtain ⟨pre, x, post, hi, rfl⟩ := (mem_definitionOffsets ser _ _ r o).mp hro
      have hg := (h.alloc.mem_items (hi ▸ List.mem_append_right pre (List.mem_cons_self _ _))).1
      have hle := le_of_mem_definitionOffsets hro
      exact ⟨by omega, by rw [hg]; norm_num⟩
    · obtain ⟨rfl, rfl⟩ := Prod.mk.inj (List.mem_singleton.mp hro)
      exact ⟨by simpa using hfit, by norm_num⟩
  obtain ⟨c, cs, hc⟩ := contiguousXrefChunks_ok (by rw [hPs]; simp)
  have hcontent := xrefStreamContent_eq hc hfitP
  obtain ⟨pairs, hsec, -⟩ := xrefSection_of_xrefStreamContent ser (w.lastobjId + 1) hcontent
    (BasePdfFileWriter.lookup_streamTrailer_W w _)
  refine ⟨_, _, pairs, _, hPs, hkeys, ?_, by rwa [decodeXrefStream_content hc hfitP] at hsec⟩
  simp only [hwrite, hs, writeToStream_none, hcontent]
  rfl

end Write

/-- For every reachable writer with at least one object, in both cross-reference modes, for any
serialization of the bodies and any starting offset at which the section still begins below the
width of its offset fields (ten decimal digits in a table, eight bytes in a stream): `write`
writes one definition per allocated `(0, i)`, in ascending `i`, then a cross-reference section
beginning at the offset `startxref` gives, which reads back to the offset of every definition
(and, for a stream, to that of its own header) and lists no other object in use. -/
theorem write_places_objects_and_xref {start : Nat} {w : BasePdfFileWriter}
    (hw : Reachable start w) (hne : w.objects.items ≠ []) (ser : Serializer)
    (md5 : List UInt8 → List UInt8) (header : List UInt8) (tell : Nat)
    (hfit : tell + (header ++ objectDefinitions ser w.objects.items).length <
      if w.streamXrefs then 2 ^ 64 else 10 ^ 10) :
    w.objects.keys = (List.range' (start + 1) (w.lastobjId - start)).map (fun i => ⟨0, i⟩) ∧
    ∃ (xref : List UInt8) (pairs : List (Nat × Nat)) (trailer : Entries)
      (es : List (Nat × XrefEntry)),
      w.write ser md5 header tell = .ok (header ++ objectDefinitions ser w.objects.items ++ xref ++
        startxrefTail (tell + (header ++ objectDefinitions ser w.objects.items).length)) ∧
      XrefSection ser (w.lastobjId + 1) w.streamXrefs xref pairs trailer (some es) ∧
      (es.map Prod.fst).Nodup ∧
      ∀ n e, (n, e) ∈ es ↔ (n = 0 ∧ e = .free 0 65535) ∨
        (∃ pre r obj post, w.objects.items = pre ++ (r, obj) :: post ∧ r.idnum = n ∧
          e = .inUse (tell + (header ++ objectDefinitions ser pre).length) 0) ∨
        (w.streamXrefs = true ∧ n = w.lastobjId + 1 ∧
          e = .inUse (tell + (header ++ objectDefinitions ser w.objects.items).length) 0) := by
  have h := hw.runInv
  refine ⟨h.alloc.2, ?_⟩
  cases hs : w.streamXrefs <;> simp only [hs, if_true, if_false, Bool.false_eq_true] at hfit
  · obtain ⟨P, xref, pairs, trailer, hP, hwrite, hsec⟩ :=
      write_table_layout ser md5 header tell h hs hne hfit
    obtain ⟨hids, hpos⟩ := nodup_pos_of_keys (Nat.succ_pos start) (positions_keys h.alloc hP)
    refine ⟨xref, pairs, trailer, _, hwrite, hsec, (expectedEntries_spec hids hpos).1,
      fun n e => ?_⟩
    rw [mem_expectedEntries_offsets h.alloc [] (by rw [List.append_nil]; exact hP) (by simp)
      hids hpos]
    simp only [Nat.add_assoc, exists_and_right, List.not_mem_nil, false_and, exists_const,
      exists_false, or_false, List.length_append, Bool.false_eq_true]
  · obtain ⟨P, xref, pairs, trailer, hP, hkeys, hwrite, hsec⟩ :=
      write_stream_layout ser md5 header tell h hs hfit
    obtain ⟨hids, hpos⟩ := nodup_pos_of_keys (Nat.succ_pos start) hkeys
    refine ⟨xref, pairs, trailer, _, hwrite, hsec, (expectedEntries_spec hids hpos).1,
      fun n e => ?_⟩
    rw [mem_expectedEntries_offsets h.alloc _ hP (by simp) hids hpos]
    simp only [eq_comm (a := n), Nat.add_assoc, exists_and_right, List.length_append,
      List.mem_singleton, Prod.mk.injEq, and_assoc, exists_and_left, exists_eq_left, true_and]

theorem write_places_objects_and_xref_pdfFileWriter :
    Reachable 0 (pdfFileWriter .null) ∧ (pdfFileWriter .null).objects.items ≠ [] ∧
    0 + (pdfFileWriterHeader ++
        objectDefinitions (fun _ _ => []) (pdfFileWriter .null).objects.items).length <
      (if (pdfFileWriter .null).streamXrefs then 2 ^ 64 else 10 ^ 10) ∧
    (pdfFileWriter .null).objects.keys =
      (List.range' (0 + 1) ((pdfFileWriter .null).lastobjId - 0)).map (fun i => ⟨0, i⟩) ∧
    ∃ (xref : List UInt8) (pairs : List (Nat × Nat)) (trailer : Entries)
      (es : List (Nat × XrefEntry)),
      (pdfFileWriter .null).write (fun _ _ => []) id pdfFileWriterHeader 0 =
        .ok (pdfFileWriterHeader ++
          objectDefinitions (fun _ _ => []) (pdfFileWriter .null).objects.items ++ xref ++
          startxrefTail (0 + (pdfFileWriterHeader ++
            objectDefinitions (fun _ _ => []) (pdfFileWriter .null).objects.items).length)) ∧
      XrefSection (fun _ _ => []) ((pdfFileWriter .null).lastobjId + 1)
        (pdfFileWriter .null).streamXrefs xref pairs trailer (some es) ∧
      (es.map Prod.fst).Nodup ∧
      ∀ n e, (n, e) ∈ es ↔ (n = 0 ∧ e = .free 0 65535) ∨
        (∃ pre r obj post, (pdfFileWriter .null).objects.items = pre ++ (r, obj) :: post ∧
          r.idnum = n ∧ e = .inUse (0 + (pdfFileWriterHeader ++
            objectDefinitions (fun _ _ => []) pre).length) 0) ∨
        ((pdfFileWriter .null).streamXrefs = true ∧ n = (pdfFileWriter .null).lastobjId + 1 ∧
          e = .inUse (0 + (pdfFileWriterHeader ++
            objectDefinitions (fun _ _ => []) (pdfFileWriter .null).objects.items).length) 0) :=
  ⟨.pdfFileWriter .null, List.cons_ne_nil _ _, by decide,
    write_places_objects_and_xref (.pdfFileWriter .null) (List.cons_ne_nil _ _) (fun _ _ => []) id
      pdfFileWriterHeader 0 (by decide)⟩

/-- The writer `BasePdfFileWriter({}, None, null, stream_xrefs=False)`: one object. -/
def tableWriter : BasePdfFileWriter := .init (.dictionary [] none) none .null 0 false

/-- Written from offset `10 ^ 10`, the definition of object 1 begins at an offset of eleven
digits: its table entry is twenty-one bytes wide and the table no longer reads back. -/
theorem write_table_overflows_ten_digits :
    Reachable 0 tableWriter ∧ tableWriter.objects.items ≠ [] ∧
    ∃ (xref : List UInt8) (pairs : List (Nat × Nat)) (trailer : Entries),
      tableWriter.write (fun _ _ => []) id [] (10 ^ 10) =
        .ok (objectDefinitions (fun _ _ => []) tableWriter.objects.items ++ xref ++
          startxrefTail (10 ^ 10 + 15)) ∧
      XrefSection (fun _ _ => []) 2 false xref pairs trailer none := by
  have hdec : decodeXrefTable (tableBytes [(0, [nullObjRef, tableEntry (10 ^ 10, 0)])]) = none := by
    decide
  have hsec : XrefSection (fun _ _ => []) 2 false
      (tableBytes [(0, [nullObjRef, tableEntry (10 ^ 10, 0)])] ++ ascii "trailer\n" ++ [])
      [(0, 2)] [] none :=
    hdec ▸ @XrefSection.table (fun _ _ => []) 2 [(0, [nullObjRef, tableEntry (10 ^ 10, 0)])] []
  exact ⟨.init _ _ _ _ _, List.cons_ne_nil _ _, _, _, _, rfl, hsec⟩

/-- In stream mode, whenever `write` completes, the payload of its cross-reference stream is a
sequence of records of `1 + 8 + 2` bytes, as the stream's `/W` declares. -/
theorem write_stream_records {start : Nat} {w : BasePdfFileWriter} (hw : Reachable start w)
    (hs : w.streamXrefs = true) {ser : Serializer} {md5 : List UInt8 → List UInt8}
    {header : List UInt8} {tell : Nat} {out : List UInt8}
    (hout : w.write ser md5 header tell = .ok out) :
    ∃ (entries : Entries) (records : List (List UInt8)),
      entries.lookup "/W" = some (.array [.number 1, .number 8, .number 2]) ∧
      out = header ++ objectDefinitions ser w.objects.items ++
        (objectHeader (w.lastobjId + 1) 0 ++ ser (.dictionary entries (some records.flatten)) none ++
          ascii "\nendobj\n") ++
        startxrefTail (tell + (header ++ objectDefinitions ser w.objects.items).length) ∧
      ∀ r ∈ records, r.length = 11 := by
  have hinv := hw.runInv
  obtain ⟨P, -, hwrite⟩ := BasePdfFileWriter.write_eq ser header tell md5 hinv.unencrypted
    hinv.alloc.sortedObjects_eq
  simp only [hwrite, hs, if_true, writeToStream_none] at hout
  obtain ⟨d, hd, rfl⟩ := exists_of_map_eq_ok hout
  obtain ⟨⟨index, data⟩, hc, rfl⟩ := exists_of_map_eq_ok hd
  obtain ⟨records, rfl, hrec⟩ := xrefStreamContent_records hc
  exact ⟨_, records, (lookup_setEntry_of_ne _ _ (by decide)).trans
    (BasePdfFileWriter.lookup_streamTrailer_W w _), rfl, hrec⟩

/-- In table mode, written from offset `10 ^ 10`, the one definition of `tableWriter` begins at
an offset of eleven digits: `write` completes, and the table's entry for it is the twenty-one
bytes `10000000000 00000 n` and its end of line. -/
theorem write_table_entry_twenty_one_bytes :
    Reachable 0 tableWriter ∧ tableWriter.streamXrefs = false ∧
    tableWriter.write (fun _ _ => []) id [] (10 ^ 10) =
      .ok (objectDefinitions (fun _ _ => []) tableWriter.objects.items ++
        (tableBytes [(0, [nullObjRef, tableEntry (10 ^ 10, 0)])] ++ ascii "trailer\n" ++ []) ++
        startxrefTail (10 ^ 10 + 15)) ∧
    nullObjRef.length = 20 ∧ tableEntry (10 ^ 10, 0) = ascii "10000000000 00000 n \n" ∧
    (tableEntry (10 ^ 10, 0)).length = 21 :=
  ⟨.init _ _ _ _ _, rfl, rfl, rfl, by decide, rfl⟩

/-- Every reachable writer's keys are exactly `(0, i)` for `obj_id_start < i ≤ _lastobj_id`, so
the number `write` gives a cross-reference stream, `_lastobj_id + 1`, is no object's; and
whenever `write` completes, its output is the definitions followed by a cross-reference section
whose trailer's `/Size` is one more than the greatest number the section lists. -/
theorem reachable_keys_and_trailer_size {start : Nat} {w : BasePdfFileWriter}
    (hw : Reachable start w) :
    (∀ r : Reference, r ∈ w.objects.keys ↔
      r.generation = 0 ∧ start < r.idnum ∧ r.idnum ≤ w.lastobjId) ∧
    (∀ r ∈ w.objects.keys, r.idnum ≠ w.lastobjId + 1) ∧
    ∀ (ser : Serializer) (md5 : List UInt8 → List UInt8) (header : List UInt8) (tell : Nat)
      (out : List UInt8), w.write ser md5 header tell = .ok out →
      ∃ (xref : List UInt8) (pairs : List (Nat × Nat)) (trailer : Entries)
        (decoded : Option (List (Nat × XrefEntry))) (m : Nat),
        out = header ++ objectDefinitions ser w.objects.items ++ xref ++
          startxrefTail (tell + (header ++ objectDefinitions ser w.objects.items).length) ∧
        XrefSection ser (w.lastobjId + 1) w.streamXrefs xref pairs trailer decoded ∧
        trailer.lookup "/Size" = some (.number (m + 1)) ∧
        m ∈ listedNumbers pairs ∧ ∀ n ∈ listedNumbers pairs, n ≤ m := by
  have hinv := hw.runInv
  refine ⟨hinv.alloc.mem_keys, fun r hr => by have := (hinv.alloc.mem_keys r).mp hr; omega, ?_⟩
  intro ser md5 header tell out hout
  obtain ⟨P, hP, hwrite⟩ := BasePdfFileWriter.write_eq ser header tell md5 hinv.unencrypted
    hinv.alloc.sortedObjects_eq
  have hlast := hinv.alloc.1
  rw [hwrite] at hout
  cases hs : w.streamXrefs <;> simp only [hs, if_true, if_false, Bool.false_eq_true] at hout
  · -- the classic table: it lists `0` and the allocated numbers, and `/Size` is `_lastobj_id + 1`
    obtain ⟨r, ht, rfl⟩ := exists_of_map_eq_ok hout
    obtain ⟨hloc, pairs, hsec, hlisted⟩ := xrefSection_of_writeXrefTable ser (w.lastobjId + 1) ht
      (setEntry (w.populateTrailer []) "/Size" (.number (w.lastobjId + 1)))
    have hkeys := positions_keys hinv.alloc hP
    have hne : 0 < w.lastobjId - start := by
      have := items_ne_nil_of_writeXrefTable ht
      rw [← List.length_pos, ← List.length_map _ Prod.fst, show P.items.map Prod.fst = P.keys
        from rfl, hkeys, List.length_map, List.length_range'] at this
      exact this
    rw [sortedById_of_keys hkeys] at hlisted
    refine ⟨_, pairs, _, _, w.lastobjId, by rw [hloc], hsec, lookup_setEntry_self _ _ _, ?_⟩
    rw [hlisted]
    exact listed_greatest hne (by omega)
  · -- the stream: it lists `0`, the allocated numbers and its own, and `/Size` is one more
    have hkeys := (positions_set_keys hinv.alloc hP
      (tell + (header ++ objectDefinitions ser w.objects.items).length)).2
    rw [writeToStream_none] at hout
    obtain ⟨d, hd, rfl⟩ := exists_of_map_eq_ok hout
    obtain ⟨⟨index, data⟩, hc, rfl⟩ := exists_of_map_eq_ok hd
    obtain ⟨pairs, hsec, hlisted⟩ := xrefSection_of_xrefStreamContent ser (w.lastobjId + 1) hc
      (BasePdfFileWriter.lookup_streamTrailer_W w _)
    rw [sortedById_of_keys hkeys] at hlisted
    refine ⟨_, pairs, _, _, w.lastobjId + 1, rfl, hsec,
      (lookup_setEntry_of_ne _ _ (by decide)).trans (lookup_setEntry_self _ _ _), ?_⟩
    rw [hlisted]
    exact listed_greatest (Nat.succ_pos _) (by omega)


theorem reachable_keys_and_trailer_size_pdfFileWriter :
    Reachable 0 (pdfFileWriter .null) ∧
    (∀ r : Reference, r ∈ (pdfFileWriter .null).objects.keys ↔
      r.generation = 0 ∧ 0 < r.idnum ∧ r.idnum ≤ (pdfFileWriter .null).lastobjId) ∧
    (∀ r ∈ (pdfFileWriter .null).objects.keys, r.idnum ≠ (pdfFileWriter .null).lastobjId + 1) ∧
    ∀ (ser : Serializer) (md5 : List UInt8 → List UInt8) (header : List UInt8) (tell : Nat)
      (out : List UInt8), (pdfFileWriter .null).write ser md5 header tell = .ok out →
      ∃ (xref : List UInt8) (pairs : List (Nat × Nat)) (trailer : Entries)
        (decoded : Option (List (Nat × XrefEntry))) (m : Nat),
        out = header ++ objectDefinitions ser (pdfFileWriter .null).objects.items ++ xref ++
          startxrefTail
            (tell + (header ++ objectDefinitions ser (pdfFileWriter .null).objects.items).length) ∧
        XrefSection ser ((pdfFileWriter .null).lastobjId + 1) (pdfFileWriter .null).streamXrefs
          xref pairs trailer decoded ∧
        trailer.lookup "/Size" = some (.number (m + 1)) ∧
        m ∈ listedNumbers pairs ∧ ∀ n ∈ listedNumbers pairs, n ≤ m :=
  ⟨.pdfFileWriter .null, reachable_keys_and_trailer_size (.pdfFileWriter .null)⟩

end PyHanko
