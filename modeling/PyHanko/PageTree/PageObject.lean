import PyHanko.PageTree.Document

/-!
# Page objects

`PageObject(contents, media_box, resources)` builds a `/Page` dictionary: `/Contents` an
indirect reference or a list of them, the four coordinates of `/MediaBox`, and `/Resources`,
an empty dictionary when none (or a false value) is given. The page has no `/Parent` and holds
its `/Type` directly, so `insert_page` takes it wherever `after` is in range; and since it holds
`/Resources`, `find_page_for_modification` returns it with those, never with resources
inherited from the tree (`pageObject_insertPage`).
-/

namespace PyHanko

set_option autoImplicit false

/-- `generic.is_indirect`. -/
def PdfObject.isIndirect : PdfObject → Bool
  | .indirect _ => true
  | _ => false

/-- Python's truth value of a PDF object, as `resources or …` reads it: the `dict`, `list`,
`int` and `str` subclasses are false when empty or zero; the other classes of
`pdf_utils.generic` define neither `__bool__` nor `__len__`. -/
def PdfObject.truthy : PdfObject → Bool
  | .dictionary es _ => !es.isEmpty
  | .array items => !items.isEmpty
  | .number n => n != 0
  | .name s => !s.isEmpty
  | .string s => !s.isEmpty
  | _ => true

/-- `resources or generic.DictionaryObject()`. -/
def resourcesOrEmpty : Option PdfObject → PdfObject
  | some r => if r.truthy then r else .emptyDict
  | none => .emptyDict

/-- `PageObject(contents, media_box, resources)`: the page dictionary, or the `ValueError` the
constructor raises. A Python list of contents is an array; the coordinates are integers, as
`NumberObject` keeps them. -/
def pageObject (contents : PdfObject) (mediaBox : List Int) (resources : Option PdfObject) :
    Except PdfError PdfObject := do
  let resources := resourcesOrEmpty resources
  match contents with
  | .array items =>
    if !items.all PdfObject.isIndirect then
      throw (.valueError "Contents array must consist of indirect references")
  | .indirect _ => pure ()
  | _ => throw (.valueError "Contents must be either an indirect reference or an array")
  if mediaBox.length ≠ 4 then throw (.valueError "Media box must consist of 4 coordinates.")
  pure (.dictionary [("/Type", .name "/Page"), ("/MediaBox", .array (mediaBox.map .number)),
    ("/Resources", resources), ("/Contents", contents)] none)

/-- The contents the constructor accepts: an indirect reference, or a list of them. -/
def contentsValid : PdfObject → Bool
  | .array items => items.all PdfObject.isIndirect
  | .indirect _ => true
  | _ => false

/-- The constructor returns exactly for accepted contents and four coordinates, and then the
dictionary it builds. -/
theorem pageObject_eq_ok_iff (contents : PdfObject) (mediaBox : List Int)
    (resources : Option PdfObject) (page : PdfObject) :
    pageObject contents mediaBox resources = .ok page ↔
      contentsValid contents = true ∧ mediaBox.length = 4 ∧
      page = .dictionary [("/Type", .name "/Page"), ("/MediaBox", .array (mediaBox.map .number)),
        ("/Resources", resourcesOrEmpty resources), ("/Contents", contents)] none := by
  have hbox : ∀ c : PdfObject, (do
      if mediaBox.length ≠ 4 then throw (.valueError "Media box must consist of 4 coordinates.")
      pure (.dictionary [("/Type", .name "/Page"), ("/MediaBox", .array (mediaBox.map .number)),
        ("/Resources", resourcesOrEmpty resources), ("/Contents", c)] none) :
        Except PdfError PdfObject) = .ok page ↔
      mediaBox.length = 4 ∧ page = .dictionary [("/Type", .name "/Page"),
        ("/MediaBox", .array (mediaBox.map .number)), ("/Resources", resourcesOrEmpty resources),
        ("/Contents", c)] none := fun c => by
    by_cases h : mediaBox.length = 4
    · simp [h, bind, Except.bind, pure, Except.pure, eq_comm]
    · simp [h, throw, throwThe, MonadExceptOf.throw, bind, Except.bind]
  cases contents with
  | array items =>
    by_cases hall : items.all PdfObject.isIndirect = true
    · simpa [pageObject, contentsValid, hall, bind, Except.bind, pure, Except.pure] using
        hbox (.array items)
    · simp [pageObject, contentsValid, hall, bind, Except.bind, throw, throwThe,
        MonadExceptOf.throw]
  | indirect r =>
    simpa [pageObject, contentsValid, bind, Except.bind, pure, Except.pure] using hbox (.indirect r)
  | _ => simp [pageObject, contentsValid, bind, Except.bind, throw, throwThe, MonadExceptOf.throw]

theorem pageObject_eq_error (contents : PdfObject) (mediaBox : List Int)
    (resources : Option PdfObject)
    (h : ¬ (contentsValid contents = true ∧ mediaBox.length = 4)) :
    ∃ msg, pageObject contents mediaBox resources = .error (.valueError msg) := by
  cases contents with
  | array items =>
    by_cases hall : items.all PdfObject.isIndirect = true
    · have hbox : mediaBox.length ≠ 4 := fun hb => h ⟨by simpa [contentsValid] using hall, hb⟩
      exact ⟨"Media box must consist of 4 coordinates.", by simp [pageObject, hall, hbox, bind,
        Except.bind, pure, Except.pure, throw, throwThe, MonadExceptOf.throw]⟩
    · exact ⟨"Contents array must consist of indirect references", by simp [pageObject, hall,
        bind, Except.bind, throw, throwThe, MonadExceptOf.throw]⟩
  | indirect r =>
    have hbox : mediaBox.length ≠ 4 := fun hb => h ⟨rfl, hb⟩
    exact ⟨"Media box must consist of 4 coordinates.", by simp [pageObject, hbox, bind,
      Except.bind, pure, Except.pure, throw, throwThe, MonadExceptOf.throw]⟩
  | _ => exact ⟨"Contents must be either an indirect reference or an array", by
      simp [pageObject, bind, Except.bind, throw, throwThe, MonadExceptOf.throw]⟩

theorem getElem?_insertAfter {α : Type} {pages : List α} {after : Option Int}
    (h : afterInRange pages.length after = true) (r : α) :
    (insertAfter pages after r)[insertIndex pages.length after]? = some r := by
  have hle : insertIndex pages.length after ≤ pages.length := by
    rw [afterInRange_iff] at h
    cases after with
    | none => simp only [insertIndex, Option.getD_none]; omega
    | some a => have := h a rfl; simp only [insertIndex, Option.getD_some]; omega
  rw [insertAfter, List.getElem?_append_right (by simp [hle])]
  simp [Nat.min_eq_left hle]

/-- For every writer holding a document, every `PageObject(contents, media_box, resources)` and
every `after`: the constructor returns exactly when `contents` is an indirect reference or a list
of them and `media_box` has four coordinates, and raises `ValueError` otherwise. Its page is then
taken by `insert_page(page, after)` exactly when `after` is in range: the call returns the next
reference and leaves the writer holding the document with the page inserted after the first
`after + 1` pages, where `find_page_for_modification` finds it with the constructor's
`/Resources`, never with resources inherited from the tree, and with no annotations; out of
range, the call raises and changes nothing. -/
theorem pageObject_insertPage {start fuel : Nat} {w : BasePdfFileWriter} {d : DocState}
    (h : Represents start fuel w d) (contents : PdfObject) (mediaBox : List Int)
    (resources : Option PdfObject) (after : Option Int) :
    (contentsValid contents = true ∧ mediaBox.length = 4 →
      ∃ page, pageObject contents mediaBox resources = .ok page) ∧
    (¬ (contentsValid contents = true ∧ mediaBox.length = 4) →
      ∃ msg, pageObject contents mediaBox resources = .error (.valueError msg)) ∧
    ∀ page, pageObject contents mediaBox resources = .ok page →
      (afterInRange d.pages.length after = false →
        ∃ e, w.insertPage fuel page after = (.error e, w)) ∧
      (afterInRange d.pages.length after = true →
        ∃ w', w.insertPage fuel page after = (.ok ⟨0, w.lastobjId + 1⟩, w') ∧
          Represents start fuel w'
            ⟨insertAfter d.pages after ⟨⟨0, d.lastobjId + 1⟩, []⟩, d.lastobjId + 1⟩ ∧
          findPageForModification fuel w' (insertIndex d.pages.length after) =
            .ok (.page ⟨0, w.lastobjId + 1⟩ (resourcesOrEmpty resources))) := by
  refine ⟨fun hv => ⟨_, (pageObject_eq_ok_iff _ _ _ _).mpr ⟨hv.1, hv.2, rfl⟩⟩,
    pageObject_eq_error contents mediaBox resources, fun page hp => ?_⟩
  obtain ⟨-, -, rfl⟩ := (pageObject_eq_ok_iff _ _ _ _).mp hp
  -- the page reads its `/Type` directly and passes the checks
  have hdir : typeDirect (.dictionary [("/Type", .name "/Page"),
      ("/MediaBox", .array (mediaBox.map .number)), ("/Resources", resourcesOrEmpty resources),
      ("/Contents", contents)] none) = true := rfl
  have hacc : pageAccepted (.dictionary [("/Type", .name "/Page"),
      ("/MediaBox", .array (mediaBox.map .number)), ("/Resources", resourcesOrEmpty resources),
      ("/Contents", contents)] none) = true := rfl
  refine ⟨fun hout => h.insertPage_rejected hdir (by rw [hacc, hout]; rfl), fun hin => ?_⟩
  obtain ⟨w', hrun, h', c, hget⟩ := h.insertPage_accepted hdir rfl hacc hin
  refine ⟨w', hrun, h',
    h'.findPage_own_resources (p := ⟨⟨0, w.lastobjId + 1⟩, []⟩) (Int.natCast_nonneg _) ?_ ?_⟩
  · rw [Int.toNat_natCast, ← h.lastobjId]
    exact getElem?_insertAfter hin _
  · simp only [Objects.resourcesOf, hget, PdfObject.setItem,
      lookup_setEntry_of_ne _ _ (show ("/Resources" : String) ≠ "/Parent" by decide)]
    rfl

/-- A letter-size page whose contents are object 9, without resources, put into
`PdfFileWriter()`. -/
theorem pageObject_insertPage_letter :
    Represents 0 1 (pdfFileWriter .null) ⟨[], 3⟩ ∧
    (contentsValid (.indirect ⟨0, 9⟩) = true ∧ [0, 0, 612, 792].length = 4 →
      ∃ page, pageObject (.indirect ⟨0, 9⟩) [0, 0, 612, 792] none = .ok page) ∧
    (¬ (contentsValid (.indirect ⟨0, 9⟩) = true ∧ [0, 0, 612, 792].length = 4) →
      ∃ msg, pageObject (.indirect ⟨0, 9⟩) [0, 0, 612, 792] none = .error (.valueError msg)) ∧
    ∀ page, pageObject (.indirect ⟨0, 9⟩) [0, 0, 612, 792] none = .ok page →
      (afterInRange (⟨[], 3⟩ : DocState).pages.length none = false →
        ∃ e, (pdfFileWriter .null).insertPage 1 page none = (.error e, pdfFileWriter .null)) ∧
      (afterInRange (⟨[], 3⟩ : DocState).pages.length none = true →
        ∃ w', (pdfFileWriter .null).insertPage 1 page none =
            (.ok ⟨0, (pdfFileWriter .null).lastobjId + 1⟩, w') ∧
          Represents 0 1 w' ⟨insertAfter (⟨[], 3⟩ : DocState).pages none
            ⟨⟨0, (⟨[], 3⟩ : DocState).lastobjId + 1⟩, []⟩, (⟨[], 3⟩ : DocState).lastobjId + 1⟩ ∧
          findPageForModification 1 w' (insertIndex (⟨[], 3⟩ : DocState).pages.length none) =
            .ok (.page ⟨0, (pdfFileWriter .null).lastobjId + 1⟩ (resourcesOrEmpty none))) :=
  ⟨represents_pdfFileWriter .null le_rfl,
    pageObject_insertPage (represents_pdfFileWriter .null le_rfl) (.indirect ⟨0, 9⟩)
      [0, 0, 612, 792] none none⟩

end PyHanko
