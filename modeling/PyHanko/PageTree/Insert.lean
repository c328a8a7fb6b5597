import PyHanko.PageTree.Walk

/-!
# Inserting a page

`insert_page(new_page, after)` first checks the page and locates the `/Pages` node and `/Kids`
list the page goes to (`insertPlan`: nothing is mutated yet). Then it raises the `/Count` of that
node and of every node up its `/Parent` chain (`increaseCounts`, a loop over an arbitrary object
graph, so with fuel), allocates the page, inserts its reference into `/Kids`, sets its
`/Parent`, and marks the node and, when `/Kids` is a separate object, the array for update.

Python keeps what a call mutated before it raised, so the writer is returned on every path.
-/

namespace PyHanko

set_option autoImplicit false

/-- What `insert_page` has settled before its first mutation. -/
structure InsertPlan where
  /-- `pages_obj_ref`: the value naming the node that receives the page. -/
  pagesObjRef : PdfObject
  /-- Where `pages_obj` lives. -/
  pagesLoc : Loc
  /-- `kid_ix + 1`, where the new reference goes in `/Kids`. -/
  insertIx : Nat
  updBoundary : PdfObject
  /-- Where the list `kids` lives. -/
  kidsLoc : Loc
  /-- The `/Kids` reference when `/Kids` is held indirectly; `kids_update_boundary` is then
  that reference, and `upd_boundary` otherwise. -/
  kidsRef : Option Reference

namespace BasePdfFileWriter

/-- Where `self.root.raw_get('/Pages')`, once resolved by `get_object()`, lives: the object it
refers to, or the catalog's entry itself when that is direct. -/
def rootPagesLoc (w : BasePdfFileWriter) : PdfObject → Loc
  | .indirect r => Loc.top r
  | _ => (Loc.top w.root).child "/Pages"

/-- The last step of the plan: `pages_obj = pages_obj_ref.get_object()` and its `/Kids`, held
directly or through a reference. -/
def kidsPlan (w : BasePdfFileWriter) (pagesObjRef : PdfObject) (pagesLoc : Loc) (insertIx : Nat)
    (updBoundary : PdfObject) : Outcome InsertPlan := do
  let pagesObj ← w.objects.resolve pagesObjRef
  match ← pagesObj.rawGet "/Kids" with
  | .indirect k => do
    let _ ← w.objects.getObject k
    pure ⟨pagesObjRef, pagesLoc, insertIx, updBoundary, Loc.top k, some k⟩
  | _ => pure ⟨pagesObjRef, pagesLoc, insertIx, updBoundary, pagesLoc.child "/Kids", none⟩

/-- The branch on `after`: `-1` puts the page first under the root, any other index after the
page `find_page_container(after)` finds. -/
def locatePlan (fuel : Nat) (w : BasePdfFileWriter) (pageTreeRootRef : PdfObject) (after : Int) :
    Outcome InsertPlan :=
  if after = -1 then
    w.kidsPlan pageTreeRootRef (w.rootPagesLoc pageTreeRootRef) 0 pageTreeRootRef
  else do
    match ← findPageContainer fuel w after with
    | .container c k _ u => w.kidsPlan (.indirect c) (Loc.top c) (k + 1) (.indirect u)
    | .page _ _ => throw (.valueError "not enough values to unpack (expected 4, got 2)")

/-- `insert_page` up to its first mutation: the checks on `new_page`, the default for `after`,
and the node, position and `/Kids` list the page goes to. -/
def insertPlan (fuel : Nat) (w : BasePdfFileWriter) (newPage : PdfObject) (after : Option Int) :
    Outcome InsertPlan := do
  let pageType ← w.objects.getItem newPage "/Type"
  if pageType.strValue? ≠ some "/Page" then throw (.valueError "Not a page object")
  if newPage.hasKey "/Parent" then throw (.valueError "/Parent must not be set.")
  let pageTreeRootRef ← (← w.objects.getObject w.root).rawGet "/Pages"
  let after ← match after with
    | some a => pure a
    | none => do
      match ← w.objects.getItem (← w.objects.resolve pageTreeRootRef) "/Count" with
      | .number pageCount => pure (pageCount - 1)
      | _ => throw .typeError
  w.locatePlan fuel pageTreeRootRef after

end BasePdfFileWriter

namespace Objects

/-- `parent['/Count']` of the node at `l`, as a number: `count + 1` raises on anything else.
(The loop reaches only locations holding an object.) -/
def countAt (objs : Objects) (l : Loc) : Except PdfError Int :=
  match objs.getItem ((objs.objectAt l).getD .null) "/Count" with
  | .ok (.number n) => .ok n
  | .ok _ => .error .typeError
  | .error e => .error e

/-- Modelled from the spec: `parent.get('/Parent')` for the node at `l`, as where the next node
of the loop lives (`none` ends it). `DictionaryObject.get` belongs to `pdf_utils.generic`, which
is not among the sources; the spec's insertion walks "from the insertion point to the root and
incrementing each ancestor's Count", so a reference is followed to its object, as
`__getitem__` does. -/
def parentGet (objs : Objects) (l : Loc) : Except PdfError (Option Loc) :=
  match objs.objectAt l with
  | some (.dictionary es _) =>
    match es.lookup "/Parent" with
    | none => .ok none
    | some (.indirect r) => (objs.getObject r).map fun _ => some (Loc.top r)
    | some _ => .ok (some (l.child "/Parent"))
  | _ => .ok none

end Objects

/-- The loop `while parent is not None: count = parent['/Count'];
parent['/Count'] = NumberObject(count + 1); parent = parent.get('/Parent')` from the node at
`l`, one unit of fuel a round. The objects are returned on every path. -/
def increaseCounts : Nat → Objects → Loc → Outcome Unit × Objects
  | 0, objs, _ => (.outOfFuel, objs)
  | fuel + 1, objs, l =>
    match objs.countAt l with
    | .error e => (.error e, objs)
    | .ok count =>
      let objs := objs.modifyAt l (·.setItem "/Count" (.number (count + 1)))
      match objs.parentGet l with
      | .error e => (.error e, objs)
      | .ok none => (.ok (), objs)
      | .ok (some parent) => increaseCounts fuel objs parent

namespace BasePdfFileWriter

/-- The end of `insert_page`, after the counts: `add_object`, `kids.insert`, the `/Parent`
assignment and the `mark_update` calls. -/
def insertNewPage (w : BasePdfFileWriter) (newPage : PdfObject) (plan : InsertPlan) :
    Outcome Reference × BasePdfFileWriter :=
  let (w, newPageRef) := w.addObject newPage
  match w.objects.mutateArray plan.kidsLoc (·.insertItem plan.insertIx (.indirect newPageRef)) with
  | .error e => (.error e, w)
  | .ok objs =>
    let w := { w with
      objects := objs.modifyAt (Loc.top newPageRef) (·.setItem "/Parent" plan.pagesObjRef) }
    let w := w.markUpdate plan.updBoundary
    let w := match plan.kidsRef with
      | some k => if plan.updBoundary.isRef k then w else w.markUpdate (.indirect k)
      | none => w
    (.ok newPageRef, w)

/-- `insert_page(new_page, after)`: the outcome and the writer afterwards. -/
def insertPage (fuel : Nat) (w : BasePdfFileWriter) (newPage : PdfObject) (after : Option Int) :
    Outcome Reference × BasePdfFileWriter :=
  match w.insertPlan fuel newPage after with
  | .error e => (.error e, w)
  | .outOfFuel => (.outOfFuel, w)
  | .ok plan =>
    match increaseCounts fuel w.objects plan.pagesLoc with
    | (.ok (), objs) => insertNewPage { w with objects := objs } newPage plan
    | (.error e, objs) => (.error e, { w with objects := objs })
    | (.outOfFuel, objs) => (.outOfFuel, { w with objects := objs })

end BasePdfFileWriter

end PyHanko
