import PyHanko.Writer.Basic

/-!
# Registering an annotation

`register_annotation(page_ref, annot_ref)` appends `annot_ref` to the page's `/Annots` array:
the array the page refers to, the array the page holds, or a new array put into the page when
`/Annots` is absent. The `try` block also catches a `KeyError` from resolving an indirect
`/Annots`, which then counts as absent. Each branch calls `mark_update` once, before the append.
-/

namespace PyHanko

set_option autoImplicit false

namespace Objects

/-- The page's `/Annots` entry, as stored. -/
def annotsEntry (objs : Objects) (page : Reference) : Option PdfObject :=
  match objs.get? page with
  | some (.dictionary es _) => es.lookup "/Annots"
  | _ => none

/-- The annotations of the page: the array its `/Annots` holds or refers to. -/
def annotsOf (objs : Objects) (page : Reference) : Option (List PdfObject) :=
  match objs.annotsEntry page with
  | some (.array items) => some items
  | some (.indirect a) =>
    match objs.get? a with
    | some (.array items) => some items
    | _ => none
  | _ => none

/-- Whether `register_annotation` has an array to append to: `/Annots` holds or refers to one,
is absent, or refers to no object. -/
def annotsWritable (objs : Objects) (page : Reference) : Bool :=
  match objs.annotsEntry page with
  | none => true
  | some (.array _) => true
  | some (.indirect a) =>
    match objs.get? a with
    | none => true
    | some (.array _) => true
    | _ => false
  | _ => false

end Objects

namespace BasePdfFileWriter

/-- `annots.append(annot_ref)` on the list at `annotsLoc`. -/
def appendAnnot (w : BasePdfFileWriter) (annotsLoc : Loc) (annotRef : PdfObject) :
    Except PdfError Unit × BasePdfFileWriter :=
  match w.objects.mutateArray annotsLoc (·.appendItem annotRef) with
  | .error e => (.error e, w)
  | .ok objs => (.ok (), { w with objects := objs })

/-- `register_annotation(page_ref, annot_ref)`, for a page given by reference: the outcome
and the writer afterwards. -/
def registerAnnotation (w : BasePdfFileWriter) (pageRef : Reference) (annotRef : PdfObject) :
    Except PdfError Unit × BasePdfFileWriter :=
  match w.objects.getObject pageRef with
  | .error e => (.error e, w)
  | .ok pageObj =>
    let pageLoc := Loc.top pageRef
    -- the `try` block: where `annots` lives, and the writer after its `mark_update`
    let attempt : Except PdfError (Loc × BasePdfFileWriter) := do
      match ← pageObj.rawGet "/Annots" with
      | .indirect annotsRef => do
        let _ ← w.objects.getObject annotsRef
        pure (Loc.top annotsRef, w.markUpdate annotRef)
      | _ => pure (pageLoc.child "/Annots", w.markUpdate (.indirect pageRef))
    match attempt with
    | .ok (annotsLoc, w) => w.appendAnnot annotsLoc annotRef
    | .error .keyError =>
      let w := w.markUpdate (.indirect pageRef)
      let w := { w with objects := w.objects.modify pageRef (·.setItem "/Annots" (.array [])) }
      w.appendAnnot (pageLoc.child "/Annots") annotRef
    | .error e => (.error e, w)

theorem appendAnnot_frame (w : BasePdfFileWriter) (l : Loc) (annotRef : PdfObject) :
    ∃ objs : Objects, (w.appendAnnot l annotRef).2 = { w with objects := objs } ∧
      objs.keys = w.objects.keys := by
  unfold appendAnnot
  split
  · exact ⟨_, rfl, rfl⟩
  · exact ⟨_, rfl, Objects.keys_of_mutateArray ‹_›⟩

/-- `register_annotation` changes objects in place only: on every path it changes `objects`
without adding or removing a key, and the update log, and nothing else. -/
theorem registerAnnotation_frame (w : BasePdfFileWriter) (pageRef : Reference)
    (annotRef : PdfObject) :
    ∃ (objs : Objects) (u : List PdfObject),
      (Prod.snd <| w.registerAnnotation pageRef annotRef) =
        { w with objects := objs, updated := u } ∧
        objs.keys = w.objects.keys := by
  unfold registerAnnotation
  split
  · exact ⟨_, _, rfl, rfl⟩
  · dsimp only
    split
    · rename_i annotsLoc w' h
      -- the `try` block returns the writer after one `mark_update`
      have hw' : ∃ u, w' = { w with updated := u } := by
        simp only [bind, Except.bind, pure, Except.pure, Functor.map, Except.map] at h
        repeat' split at h
        all_goals simp only [reduceCtorEq, Except.ok.injEq, Prod.mk.injEq] at h
        all_goals obtain ⟨-, rfl⟩ := h; exact ⟨_, rfl⟩
      obtain ⟨u, rfl⟩ := hw'
      obtain ⟨objs, h1, h2⟩ := appendAnnot_frame { w with updated := u } annotsLoc annotRef
      exact ⟨objs, u, h1, h2⟩
    · obtain ⟨objs, h1, h2⟩ := appendAnnot_frame _ (Loc.child (Loc.top pageRef) "/Annots") annotRef
      exact ⟨objs, _, h1, by rw [h2]; simp [markUpdate]⟩
    · exact ⟨_, _, rfl, rfl⟩

theorem registerAnnotation_indirect {w : BasePdfFileWriter} {pageRef annotsRef : Reference}
    {es : Entries} {st : Option (List UInt8)} {items : List PdfObject}
    (hpage : w.objects.get? pageRef = some (.dictionary es st))
    (hannots : es.lookup "/Annots" = some (.indirect annotsRef))
    (harray : w.objects.get? annotsRef = some (.array items)) (annotRef : PdfObject) :
    w.registerAnnotation pageRef annotRef =
      (.ok (), { w with
        objects := w.objects.modify annotsRef (·.appendItem annotRef)
        updated := w.updated ++ [annotRef] }) := by
  have hget : w.objects.getObject pageRef = .ok (.dictionary es st) :=
    Objects.getObject_eq_ok.mpr hpage
  have hgetA : w.objects.getObject annotsRef = .ok (.array items) :=
    Objects.getObject_eq_ok.mpr harray
  unfold registerAnnotation
  simp [hget, hannots, hgetA, appendAnnot, Objects.mutateArray, harray,
    markUpdate, bind, Except.bind, pure, Except.pure]

section Cases

variable {w : BasePdfFileWriter} {page : Reference} {es : Entries} {st : Option (List UInt8)}

theorem registerAnnotation_new (hg : w.objects.get? page = some (.dictionary es st))
    (hnew : es.lookup "/Annots" = none ∨
      ∃ a, es.lookup "/Annots" = some (.indirect a) ∧ w.objects.get? a = none)
    (annotRef : PdfObject) :
    w.registerAnnotation page annotRef = (.ok (), { w with
      objects := (w.objects.modify page (·.setItem "/Annots" (.array []))).modify page
        (·.modifyAt ["/Annots"] (·.appendItem annotRef))
      updated := w.updated ++ [.indirect page] }) := by
  have hget : w.objects.getObject page = .ok (.dictionary es st) := Objects.getObject_eq_ok.mpr hg
  have hset : (w.objects.modify page (·.setItem "/Annots" (.array []))).get? page =
      some (.dictionary (setEntry es "/Annots" (.array [])) st) := by
    simp [hg, PdfObject.setItem]
  unfold registerAnnotation
  rcases hnew with hl | ⟨a, hl, ha⟩
  · simp [hget, PdfObject.rawGet, hl, bind, Except.bind, appendAnnot, Objects.mutateArray,
      Objects.objectAt, Loc.child, Loc.top, hset, PdfObject.descend, markUpdate, Objects.modifyAt]
  · have hgetA : w.objects.getObject a = .error .keyError := by simp [Objects.getObject, ha]
    simp [hget, PdfObject.rawGet, hl, hgetA, bind, Except.bind, appendAnnot, Objects.mutateArray,
      Objects.objectAt, Loc.child, Loc.top, hset, PdfObject.descend, markUpdate, Objects.modifyAt]

theorem registerAnnotation_direct (hg : w.objects.get? page = some (.dictionary es st))
    {items : List PdfObject} (hl : es.lookup "/Annots" = some (.array items))
    (annotRef : PdfObject) :
    w.registerAnnotation page annotRef = (.ok (), { w with
      objects := w.objects.modify page (·.modifyAt ["/Annots"] (·.appendItem annotRef))
      updated := w.updated ++ [.indirect page] }) := by
  have hget : w.objects.getObject page = .ok (.dictionary es st) := Objects.getObject_eq_ok.mpr hg
  unfold registerAnnotation
  simp [hget, PdfObject.rawGet, hl, bind, Except.bind, pure, Except.pure, appendAnnot,
    Objects.mutateArray, Objects.objectAt, Loc.child, Loc.top, hg, PdfObject.descend, markUpdate,
    Objects.modifyAt]

theorem registerAnnotation_unwritable (hg : w.objects.get? page = some (.dictionary es st))
    (hno : w.objects.annotsWritable page = false) (annotRef : PdfObject) :
    (∃ e, (w.registerAnnotation page annotRef).1 = .error e) ∧
      (w.registerAnnotation page annotRef).2.objects = w.objects := by
  have hget : w.objects.getObject page = .ok (.dictionary es st) := Objects.getObject_eq_ok.mpr hg
  simp only [Objects.annotsWritable, Objects.annotsEntry, hg] at hno
  unfold registerAnnotation
  cases hl : es.lookup "/Annots" with
  | none => simp [hl] at hno
  | some v =>
    cases v
    case array => simp [hl] at hno
    case indirect a =>
      cases ha : w.objects.get? a with
      | none => simp [hl, ha] at hno
      | some o =>
        simp only [hl, ha] at hno
        have hgetA : w.objects.getObject a = .ok o := Objects.getObject_eq_ok.mpr ha
        cases o
        case array => simp at hno
        all_goals simp [hget, PdfObject.rawGet, hl, hgetA, bind, Except.bind, pure, Except.pure,
          appendAnnot, Objects.mutateArray, ha, markUpdate]
    all_goals simp [hget, PdfObject.rawGet, hl, bind, Except.bind, pure, Except.pure, appendAnnot,
      Objects.mutateArray, Objects.objectAt, Loc.child, Loc.top, hg, PdfObject.descend, markUpdate]

end Cases

end BasePdfFileWriter

end PyHanko
