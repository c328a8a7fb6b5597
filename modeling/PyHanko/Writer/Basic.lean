import PyHanko.Generic

/-!
# The writer's state and its allocator

`BasePdfFileWriter` owns the map `objects` from `(generation, idnum)` to objects and the counter
`_lastobj_id`; `add_object` stores an object under the next number, with generation 0. The
allocator's invariant `AllocInv`: the keys are `(0, i)` for `obj_id_start < i ≤ _lastobj_id`,
in insertion order. `add_object` keeps it, and so does any in-place mutation of a stored object.
-/

namespace PyHanko

set_option autoImplicit false

/-- The state of a `BasePdfFileWriter`. -/
structure BasePdfFileWriter where
  objects : Objects
  lastobjId : Nat
  /-- `self._root`, an indirect reference. -/
  root : Reference
  /-- `self._info`: `None` or an indirect reference. -/
  info : Option Reference
  /-- `self._encrypt`, through the one field the writer reads: its `idnum`. -/
  encrypt : Option Nat
  /-- `self._encrypt_key`. -/
  encryptKey : Option (List UInt8)
  documentId : PdfObject
  streamXrefs : Bool
  /-- The arguments of the calls to `mark_update`, in order. The base writer's hook does
  nothing; the incremental writer re-serializes what it is given. -/
  updated : List PdfObject

namespace BasePdfFileWriter

/-- `add_object(obj)`: the writer afterwards and the new reference. -/
def addObject (w : BasePdfFileWriter) (obj : PdfObject) : BasePdfFileWriter × Reference :=
  ({ w with lastobjId := w.lastobjId + 1, objects := w.objects.set ⟨0, w.lastobjId + 1⟩ obj },
    ⟨0, w.lastobjId + 1⟩)

/-- `mark_update(obj_ref)`, recorded. -/
def markUpdate (w : BasePdfFileWriter) (r : PdfObject) : BasePdfFileWriter :=
  { w with updated := w.updated ++ [r] }

/-- `BasePdfFileWriter.__init__(root, info, document_id, obj_id_start, stream_xrefs)`; the
reference `root` gets before it is known is never read. -/
def init (root : PdfObject) (info : Option PdfObject) (documentId : PdfObject) (objIdStart : Nat)
    (streamXrefs : Bool) : BasePdfFileWriter :=
  let w₀ : BasePdfFileWriter :=
    { objects := .empty, lastobjId := objIdStart, root := ⟨0, 0⟩, info := none, encrypt := none,
      encryptKey := none, documentId := documentId, streamXrefs := streamXrefs, updated := [] }
  let w₁ := match root with
    | .indirect r => { w₀ with root := r }
    | o => let (w, r) := w₀.addObject o; { w with root := r }
  match info with
  | none => w₁
  | some (.indirect r) => { w₁ with info := some r }
  | some o => let (w, r) := w₁.addObject o; { w with info := some r }

@[simp] theorem addObject_snd (w : BasePdfFileWriter) (obj : PdfObject) :
    (w.addObject obj).2 = ⟨0, w.lastobjId + 1⟩ := rfl

@[simp] theorem addObject_lastobjId (w : BasePdfFileWriter) (obj : PdfObject) :
    (w.addObject obj).1.lastobjId = w.lastobjId + 1 := rfl

@[simp] theorem addObject_updated (w : BasePdfFileWriter) (obj : PdfObject) :
    (w.addObject obj).1.updated = w.updated := rfl

@[simp] theorem addObject_root (w : BasePdfFileWriter) (obj : PdfObject) :
    (w.addObject obj).1.root = w.root := rfl

@[simp] theorem markUpdate_objects (w : BasePdfFileWriter) (r : PdfObject) :
    (w.markUpdate r).objects = w.objects := rfl

@[simp] theorem markUpdate_lastobjId (w : BasePdfFileWriter) (r : PdfObject) :
    (w.markUpdate r).lastobjId = w.lastobjId := rfl

end BasePdfFileWriter

/-- `PdfFileWriter.__init__()`: a catalog, an info dictionary and an empty page tree, with the
base constructor's defaults `obj_id_start=0` and `stream_xrefs=True`. The two random byte
strings of the document ID are a parameter. -/
def pdfFileWriter (documentId : PdfObject) : BasePdfFileWriter :=
  let w := BasePdfFileWriter.init (.dictionary [("/Type", .name "/Catalog")] none)
    (some (.dictionary [("/Producer", .string "pdfstamp")] none)) documentId 0 true
  let pages : PdfObject :=
    .dictionary [("/Type", .name "/Pages"), ("/Count", .number 0), ("/Kids", .array [])] none
  let (w, pagesRef) := w.addObject pages
  { w with objects := w.objects.modify w.root (·.setItem "/Pages" (.indirect pagesRef)) }

/-- The allocator's invariant for a writer built with `obj_id_start = start`: its keys are
`(0, start + 1), …, (0, _lastobj_id)`, in insertion order. -/
def AllocInv (start : Nat) (w : BasePdfFileWriter) : Prop :=
  start ≤ w.lastobjId ∧
    w.objects.keys = (List.range' (start + 1) (w.lastobjId - start)).map fun i => ⟨0, i⟩

namespace AllocInv

variable {start : Nat} {w : BasePdfFileWriter}

theorem mem_keys (h : AllocInv start w) (r : Reference) :
    r ∈ w.objects.keys ↔ r.generation = 0 ∧ start < r.idnum ∧ r.idnum ≤ w.lastobjId := by
  rw [h.2, List.mem_map]
  constructor
  · rintro ⟨i, hi, rfl⟩
    rw [List.mem_range'_1] at hi
    exact ⟨rfl, by dsimp only; omega, by dsimp only; omega⟩
  · rintro ⟨hg, hlo, hhi⟩
    exact ⟨r.idnum, List.mem_range'_1.mpr ⟨by omega, by omega⟩, by cases r; simp_all⟩

theorem next_fresh (h : AllocInv start w) : (⟨0, w.lastobjId + 1⟩ : Reference) ∉ w.objects.keys := by
  rw [h.mem_keys]; simp

theorem addObject (h : AllocInv start w) (obj : PdfObject) : AllocInv start (w.addObject obj).1 := by
  refine ⟨by simp only [BasePdfFileWriter.addObject_lastobjId]; have := h.1; omega, ?_⟩
  simp only [BasePdfFileWriter.addObject]
  rw [PyDict.keys_set_of_not_mem _ _ h.next_fresh, h.2,
    show w.lastobjId + 1 - start = (w.lastobjId - start) + 1 by have := h.1; omega,
    List.range'_concat, List.map_append]
  simp only [List.map_cons, List.map_nil]
  congr 3; have := h.1; omega

theorem of_keys (h : AllocInv start w) {w' : BasePdfFileWriter} (hk : w'.objects.keys = w.objects.keys)
    (hl : w'.lastobjId = w.lastobjId) : AllocInv start w' := by
  rw [AllocInv, hk, hl]; exact h

end AllocInv

end PyHanko
