import PyHanko.Writer.Basic

/-!
# Walking the page tree

`_walk_page_tree(page_ix, retrieve_parent)` checks `0 ≤ page_ix < /Count` at the root of the
page tree and then descends. In each `/Pages` node it runs through `/Kids` with a counter of
the leaves passed: a `/Pages` child is skipped whole by its `/Count` or recursed into, a
`/Page` child counts one, any other child is passed over. The inner `_recurse` is unbounded
recursion over whatever object graph the writer holds, so here it takes fuel, one unit a call;
a walk that runs out is `Outcome.outOfFuel`.
-/

namespace PyHanko

set_option autoImplicit false

/-- What `_walk_page_tree` returns. With `retrieve_parent`: the `/Pages` node holding the page,
the page's position in its `/Kids`, the inherited resources, and the node to mark when the
`/Pages` node changes. Without: the page and its resources. -/
inductive PageLocation where
  | container (pagesObjRef : Reference) (kidIndex : Nat) (resources : PdfObject)
      (updBoundary : Reference)
  | page (pageRef : Reference) (resources : PdfObject)
  deriving Repr

/-- The values Python's `for` runs through for a `/Kids` value: an array's items, a
dictionary's keys, a string's characters. Anything else is not iterable. -/
def kidsIter : PdfObject → Except PdfError (List PdfObject)
  | .array items => .ok items
  | .dictionary es _ => .ok (es.map fun e => .name e.1)
  | .name s | .string s => .ok (s.toList.map fun c => .string c.toString)
  | _ => .error .typeError

/-- `assert isinstance(x, generic.IndirectObject)`. -/
def assertIndirect : PdfObject → Except PdfError Reference
  | .indirect r => .ok r
  | _ => .error .assertionError

/-- `0 <= page_ix < page_count`. The chained comparison stops at the first false test, so
`page_count` is compared only when `page_ix ≥ 0`; comparing an `int` with a non-number raises. -/
def indexInRange (pageIx : Int) : PdfObject → Except PdfError Bool
  | .number n => .ok (decide (0 ≤ pageIx ∧ pageIx < n))
  | _ => if 0 ≤ pageIx then .error .typeError else .ok false

@[simp] theorem kidsIter_array (items : List PdfObject) : kidsIter (.array items) = .ok items := rfl

@[simp] theorem assertIndirect_indirect (r : Reference) :
    assertIndirect (.indirect r) = .ok r := rfl

theorem eq_of_assertIndirect {o : PdfObject} {r : Reference} (h : assertIndirect o = .ok r) :
    o = .indirect r := by
  cases o <;> cases h
  rfl

section Walk

variable (objs : Objects) (pageIx : Int) (retrieveParent : Bool)

/-- The loop `for kid_index, kid_ref in enumerate(kids)` of `_recurse` in the node
`pages_obj_ref`, from the counter `cur_page_ix` and the position `kid_index` on.
`descend cur kid` is the recursive call `_recurse(cur, kid, last_rsrc_dict, kid)`. -/
def walkKids (pagesObjRef : Reference) (lastRsrcDict : PdfObject) (prevLastIndir : Reference)
    (descend : Int → Reference → Outcome PageLocation) :
    Int → Nat → List PdfObject → Outcome PageLocation
  | _, _, [] => .error (.valueError "Page not found")
  | curPageIx, kidIndex, kidRef :: rest => do
    let kidRef ← assertIndirect kidRef
    let kid ← objs.getObject kidRef
    let nodeType ← objs.getItem kid "/Type"
    if nodeType.strValue? = some "/Pages" then
      match ← objs.getItem kid "/Count" with
      | .number descCount =>
        if curPageIx ≤ pageIx ∧ pageIx < curPageIx + descCount then descend curPageIx kidRef
        else
          walkKids pagesObjRef lastRsrcDict prevLastIndir descend (curPageIx + descCount)
            (kidIndex + 1) rest
      | _ => throw .typeError
    else if nodeType.strValue? = some "/Page" then
      if curPageIx = pageIx then
        if retrieveParent then
          pure (.container pagesObjRef kidIndex lastRsrcDict prevLastIndir)
        else
          return .page kidRef (← kid.rawGetOr "/Resources" lastRsrcDict)
      else
        walkKids pagesObjRef lastRsrcDict prevLastIndir descend (curPageIx + 1)
          (kidIndex + 1) rest
    else walkKids pagesObjRef lastRsrcDict prevLastIndir descend curPageIx (kidIndex + 1) rest

/-- `_recurse(first_page_ix, pages_obj_ref, last_rsrc_dict, prev_last_indir)`, one unit of
fuel a call. Its local `last_indir` is assigned and never read, so it is left out. -/
def recurse : Nat → Int → Reference → PdfObject → Reference → Outcome PageLocation
  | 0, _, _, _, _ => .outOfFuel
  | fuel + 1, firstPageIx, pagesObjRef, lastRsrcDict, prevLastIndir => do
    let pagesObj ← objs.getObject pagesObjRef
    let kids ← objs.resolve (← pagesObj.rawGet "/Kids")
    let lastRsrcDict ← pagesObj.rawGetOr "/Resources" lastRsrcDict
    walkKids objs pageIx retrieveParent pagesObjRef lastRsrcDict prevLastIndir
      (fun cur kidRef => recurse fuel cur kidRef lastRsrcDict kidRef) firstPageIx 0
      (← kidsIter kids)

end Walk

/-- `_walk_page_tree(page_ix, retrieve_parent)`, with fuel for `_recurse`. -/
def walkPageTree (fuel : Nat) (w : BasePdfFileWriter) (pageIx : Int) (retrieveParent : Bool) :
    Outcome PageLocation := do
  let pageTreeRootRef ← assertIndirect (← (← w.objects.getObject w.root).rawGet "/Pages")
  let pageTreeRoot ← w.objects.getObject pageTreeRootRef
  let rootResources ← w.objects.getItemOr pageTreeRoot "/Resources" PdfObject.emptyDict
  let pageCount ← w.objects.getItem pageTreeRoot "/Count"
  if !(← indexInRange pageIx pageCount) then throw (.valueError "Page index out of range")
  recurse w.objects pageIx retrieveParent fuel 0 pageTreeRootRef rootResources pageTreeRootRef

/-- `find_page_container(page_ix)`. -/
def findPageContainer (fuel : Nat) (w : BasePdfFileWriter) (pageIx : Int) :
    Outcome PageLocation :=
  walkPageTree fuel w pageIx true

/-- `find_page_for_modification(page_ix)`. -/
def findPageForModification (fuel : Nat) (w : BasePdfFileWriter) (pageIx : Int) :
    Outcome PageLocation :=
  walkPageTree fuel w pageIx false

end PyHanko
