import Mathlib.Data.List.Nodup

/-!
# The PDF object model the writer consumes

`pdf_utils.generic` is not among the sources; the writer uses it as an opaque capability set
(indirect references with a resolve operation, dictionaries, arrays, names, numbers, strings,
streams). This module fixes the values of that model and the few operations of it the writer
calls: `raw_get`, `__getitem__` (which resolves references), `get_object`, item assignment.

Python objects are mutable and shared; here a direct object is a value, and a mutable object
is addressed by a `Loc`: the indirect object holding it and the dictionary keys followed from
there. Floats and byte strings are not modelled: no field the writer reads holds one.
-/

namespace PyHanko

set_option autoImplicit false

/-- The identity of an indirect object; the writer keys its objects by the Python tuple
`(generation, idnum)`. -/
structure Reference where
  generation : Nat
  idnum : Nat
  deriving DecidableEq, Repr

/-- The Python exceptions raised by the modelled code. -/
inductive PdfError where
  | valueError (msg : String)
  | keyError
  | typeError
  | attributeError
  | assertionError
  /-- `StopIteration` escaping a generator, which Python turns into `RuntimeError`. -/
  | runtimeError
  /-- `struct.pack` of a value that does not fit its format. -/
  | structError
  deriving DecidableEq, Repr

/-- A PDF object. A stream is a dictionary carrying a raw byte payload, as `StreamObject`
subclasses `DictionaryObject`. -/
inductive PdfObject where
  | null
  | boolean (b : Bool)
  | number (n : Int)
  | name (n : String)
  | string (s : String)
  | array (items : List PdfObject)
  | dictionary (entries : List (String × PdfObject)) (stream : Option (List UInt8))
  | indirect (ref : Reference)
  deriving Repr, Inhabited

/-- The entries of a dictionary; Python keeps one value per key, in insertion order. -/
abbrev Entries := List (String × PdfObject)

theorem lookup_cons_eq_ite {κ β : Type} [DecidableEq κ] (k a : κ) (b : β) (es : List (κ × β)) :
    ((k, b) :: es).lookup a = if a = k then some b else es.lookup a := by
  rw [List.lookup_cons]; split <;> simp_all

/-- `d[key] = value` on a dictionary's entries: the value replaces the old one in place, or is
appended. -/
def setEntry : Entries → String → PdfObject → Entries
  | [], k, v => [(k, v)]
  | (k', v') :: es, k, v => if k' = k then (k, v) :: es else (k', v') :: setEntry es k v

@[simp] theorem lookup_setEntry_self (es : Entries) (k : String) (v : PdfObject) :
    (setEntry es k v).lookup k = some v := by
  induction es with
  | nil => simp [setEntry, lookup_cons_eq_ite]
  | cons e es ih =>
    obtain ⟨k', v'⟩ := e
    by_cases h : k' = k
    · simp [setEntry, h, lookup_cons_eq_ite]
    · simp [setEntry, h, lookup_cons_eq_ite, ih, show k ≠ k' from fun e => h e.symm]

theorem lookup_setEntry_of_ne (es : Entries) {k k' : String} (v : PdfObject) (h : k' ≠ k) :
    (setEntry es k v).lookup k' = es.lookup k' := by
  induction es with
  | nil => simp [setEntry, lookup_cons_eq_ite, h]
  | cons e es ih =>
    obtain ⟨k'', v'⟩ := e
    by_cases hk : k'' = k
    · subst hk; simp [setEntry, lookup_cons_eq_ite, h]
    · simp [setEntry, hk, lookup_cons_eq_ite, ih]

namespace PdfObject

/-- The text of a name or string: `NameObject` and `TextStringObject` are `str` subclasses,
so `node_type == '/Pages'` holds for either. -/
def strValue? : PdfObject → Option String
  | .name n => some n
  | .string s => some s
  | _ => none

/-- `DictionaryObject.raw_get(key)`: the stored value, references not resolved. -/
def rawGet : PdfObject → String → Except PdfError PdfObject
  | .dictionary es _, k =>
    match es.lookup k with
    | some v => .ok v
    | none => .error .keyError
  | _, _ => .error .attributeError

/-- An empty `DictionaryObject()`. -/
def emptyDict : PdfObject := .dictionary [] none

/-- `obj[key] = value` on a dictionary (on anything else the writer never assigns). -/
def setItem : PdfObject → String → PdfObject → PdfObject
  | .dictionary es st, k, v => .dictionary (setEntry es k v) st
  | o, _, _ => o

/-- `try: v = obj.raw_get(key) except KeyError: v = default`. -/
def rawGetOr (o : PdfObject) (k : String) (default : PdfObject) : Except PdfError PdfObject :=
  match o.rawGet k with
  | .error .keyError => .ok default
  | r => r

/-- `key in obj` for a dictionary. -/
def hasKey : PdfObject → String → Bool
  | .dictionary es _, k => (es.lookup k).isSome
  | _, _ => false

/-- `obj == IndirectObject(r)`: only a reference to the same object is equal to it. -/
def isRef : PdfObject → Reference → Bool
  | .indirect r, k => r = k
  | _, _ => false

/-- `kids.insert(i, x)` on an array, `i ≥ 0`: past the end it appends. -/
def insertItem : PdfObject → Nat → PdfObject → PdfObject
  | .array items, i, x => .array (items.take i ++ x :: items.drop i)
  | o, _, _ => o

/-- `annots.append(x)` on an array. -/
def appendItem : PdfObject → PdfObject → PdfObject
  | .array items, x => .array (items ++ [x])
  | o, _ => o

/-- The object reached by following the dictionary keys of `path`, values taken raw. -/
def descend : PdfObject → List String → Option PdfObject
  | o, [] => some o
  | .dictionary es _, k :: ks => (es.lookup k).bind (descend · ks)
  | _, _ :: _ => none

/-- Apply `f` to the object at `path`, in place. -/
def modifyAt : PdfObject → List String → (PdfObject → PdfObject) → PdfObject
  | o, [], f => f o
  | .dictionary es st, k :: ks, f =>
    match es.lookup k with
    | some v => .dictionary (setEntry es k (modifyAt v ks f)) st
    | none => .dictionary es st
  | o, _ :: _, _ => o

@[simp] theorem rawGet_dictionary (es : Entries) (st : Option (List UInt8)) (k : String) :
    (dictionary es st).rawGet k = match es.lookup k with
      | some v => .ok v
      | none => .error .keyError := rfl

@[simp] theorem setItem_dictionary (es : Entries) (st : Option (List UInt8)) (k : String)
    (v : PdfObject) : (dictionary es st).setItem k v = dictionary (setEntry es k v) st := rfl

@[simp] theorem descend_nil (o : PdfObject) : o.descend [] = some o := by
  cases o <;> rfl

@[simp] theorem modifyAt_nil (o : PdfObject) (f : PdfObject → PdfObject) :
    o.modifyAt [] f = f o := by
  cases o <;> rfl

end PdfObject

/-- A Python `dict`: its items in insertion order, each key once. -/
structure PyDict (κ α : Type) where
  items : List (κ × α)
  nodup : (items.map Prod.fst).Nodup

namespace PyDict

variable {κ α : Type} [DecidableEq κ]

/-- The keys in iteration order. -/
def keys (d : PyDict κ α) : List κ := d.items.map Prod.fst

/-- `d[k]`, `none` where Python raises `KeyError`. -/
def get? (d : PyDict κ α) (k : κ) : Option α := d.items.lookup k

/-- The empty `{}`. -/
def empty : PyDict κ α := ⟨[], List.nodup_nil⟩

private theorem map_fst_replace (xs : List (κ × α)) (k : κ) (v : α) :
    (xs.map fun e => if e.1 = k then (k, v) else e).map Prod.fst = xs.map Prod.fst := by
  induction xs with
  | nil => rfl
  | cons e xs ih => by_cases h : e.1 = k <;> simp [h, ih]

private theorem map_fst_modify (xs : List (κ × α)) (k : κ) (f : α → α) :
    (xs.map fun e => if e.1 = k then (k, f e.2) else e).map Prod.fst = xs.map Prod.fst := by
  induction xs with
  | nil => rfl
  | cons e xs ih => by_cases h : e.1 = k <;> simp [h, ih]

/-- `d[k] = v`: replaces the value of an existing key in place, or appends a new item. -/
def set (d : PyDict κ α) (k : κ) (v : α) : PyDict κ α :=
  if h : k ∈ d.keys then
    ⟨d.items.map (fun e => if e.1 = k then (k, v) else e),
      by rw [map_fst_replace]; exact d.nodup⟩
  else
    ⟨d.items ++ [(k, v)], by
      rw [List.map_append, List.nodup_append]
      exact ⟨d.nodup, by simp, by simpa [keys] using h⟩⟩

/-- In-place mutation of the value stored under `k` (nothing happens if `k` is absent). -/
def modify (d : PyDict κ α) (k : κ) (f : α → α) : PyDict κ α :=
  ⟨d.items.map (fun e => if e.1 = k then (k, f e.2) else e),
    by rw [map_fst_modify]; exact d.nodup⟩

@[simp] theorem keys_modify (d : PyDict κ α) (k : κ) (f : α → α) :
    (d.modify k f).keys = d.keys := map_fst_modify _ _ _

theorem items_set_of_not_mem (d : PyDict κ α) {k : κ} (v : α) (h : k ∉ d.keys) :
    (d.set k v).items = d.items ++ [(k, v)] := by
  unfold set; rw [dif_neg h]

theorem keys_set_of_not_mem (d : PyDict κ α) {k : κ} (v : α) (h : k ∉ d.keys) :
    (d.set k v).keys = d.keys ++ [k] := by
  simp [keys, items_set_of_not_mem d v h]

private theorem lookup_map_modify (xs : List (κ × α)) (k k' : κ) (f : α → α) :
    (xs.map fun e => if e.1 = k then (k, f e.2) else e).lookup k' =
      if k' = k then (xs.lookup k').map f else xs.lookup k' := by
  induction xs with
  | nil => by_cases h : k' = k <;> simp [h]
  | cons e xs ih =>
    obtain ⟨j, a⟩ := e
    by_cases hj : j = k
    · subst hj; by_cases h : k' = j <;> simp [h, ih, lookup_cons_eq_ite]
    · simp only [List.map_cons, hj, if_false, lookup_cons_eq_ite, ih]
      by_cases h : k' = k
      · subst h; simp [Ne.symm hj]
      · simp [h]

theorem get?_modify (d : PyDict κ α) (k k' : κ) (f : α → α) :
    (d.modify k f).get? k' = if k' = k then (d.get? k').map f else d.get? k' :=
  lookup_map_modify _ _ _ _

@[simp] theorem get?_modify_self (d : PyDict κ α) (k : κ) (f : α → α) :
    (d.modify k f).get? k = (d.get? k).map f := by simp [get?_modify]

theorem get?_modify_of_ne (d : PyDict κ α) {k k' : κ} (f : α → α) (h : k' ≠ k) :
    (d.modify k f).get? k' = d.get? k' := by simp [get?_modify, h]

theorem get?_set (d : PyDict κ α) (k k' : κ) (v : α) :
    (d.set k v).get? k' = if k' = k then some v else d.get? k' := by
  unfold set get?
  split
  · rename_i h
    have := lookup_map_modify d.items k k' (fun _ => v)
    simp only at this
    rw [this]
    split
    · subst k'
      obtain ⟨x, hx⟩ : ∃ x, d.items.lookup k = some x := by
        apply Option.isSome_iff_exists.mp
        rw [List.lookup_isSome_iff]
        obtain ⟨p, hp, rfl⟩ := List.mem_map.mp h
        exact ⟨p, hp, by simp⟩
      simp [hx]
    · rfl
  · rename_i h
    rw [List.lookup_append]
    split
    · subst k'
      have : d.items.lookup k = none := by
        rw [List.lookup_eq_none_iff]
        intro p hp
        simp only [bne_iff_ne, ne_eq]
        rintro rfl
        exact h (List.mem_map.mpr ⟨p, hp, rfl⟩)
      simp [this]
    · rename_i hne
      cases d.items.lookup k' <;> simp [lookup_cons_eq_ite, hne]

theorem mem_keys_of_get? {d : PyDict κ α} {k : κ} {v : α} (h : d.get? k = some v) :
    k ∈ d.keys := by
  unfold get? at h
  unfold keys
  generalize d.items = items at h ⊢
  induction items with
  | nil => simp at h
  | cons e es ih =>
    obtain ⟨k', b⟩ := e
    rw [lookup_cons_eq_ite] at h
    split at h
    · simp_all
    · simp [ih h]

theorem get?_eq_some_iff (d : PyDict κ α) {k : κ} {v : α} :
    d.get? k = some v ↔ (k, v) ∈ d.items := by
  obtain ⟨items, hnd⟩ := d
  unfold get?
  induction items with
  | nil => simp
  | cons e es ih =>
    obtain ⟨k', v'⟩ := e
    rw [List.map_cons, List.nodup_cons] at hnd
    rw [lookup_cons_eq_ite, List.mem_cons]
    by_cases hk : k = k'
    · subst hk
      have hnot : (k, v) ∉ es := fun h => hnd.1 (List.mem_map.mpr ⟨_, h, rfl⟩)
      simp [hnot, eq_comm]
    · simp [hk, ih hnd.2]

end PyDict

/-- The writer's `objects` dictionary. -/
abbrev Objects := PyDict Reference PdfObject

/-- Where a mutable Python object lives: in the indirect object `ref`, under the dictionary
keys of `path` (empty for the indirect object itself). -/
structure Loc where
  ref : Reference
  path : List String
  deriving DecidableEq, Repr

/-- The location of an indirect object. -/
def Loc.top (r : Reference) : Loc := ⟨r, []⟩

/-- The location of the direct object stored under `k` in the dictionary at `l`. -/
def Loc.child (l : Loc) (k : String) : Loc := ⟨l.ref, l.path ++ [k]⟩

namespace Objects

/-- The Python object at a location. -/
def objectAt (objs : Objects) (l : Loc) : Option PdfObject :=
  (objs.get? l.ref).bind (·.descend l.path)

/-- In-place mutation of the Python object at a location. -/
def modifyAt (objs : Objects) (l : Loc) (f : PdfObject → PdfObject) : Objects :=
  objs.modify l.ref (·.modifyAt l.path f)

/-- `BasePdfFileWriter.get_object`: `self.objects[(generation, idnum)]`. References are
taken to belong to this writer (the `pdf must be self` check is not modelled). -/
def getObject (objs : Objects) (r : Reference) : Except PdfError PdfObject :=
  match objs.get? r with
  | some o => .ok o
  | none => .error .keyError

/-- `obj.get_object()`: a reference is looked up once, a direct object is itself. -/
def resolve (objs : Objects) : PdfObject → Except PdfError PdfObject
  | .indirect r => objs.getObject r
  | o => .ok o

/-- `obj[key]`: `DictionaryObject.__getitem__` resolves the stored value; subscripting
anything but a dictionary is a `TypeError`. -/
def getItem (objs : Objects) : PdfObject → String → Except PdfError PdfObject
  | .dictionary es _, k =>
    match es.lookup k with
    | some v => objs.resolve v
    | none => .error .keyError
  | _, _ => .error .typeError

@[simp] theorem objectAt_top (objs : Objects) (r : Reference) :
    objs.objectAt (Loc.top r) = objs.get? r := by
  simp [objectAt, Loc.top]

@[simp] theorem modifyAt_top (objs : Objects) (r : Reference) (f : PdfObject → PdfObject) :
    objs.modifyAt (Loc.top r) f = objs.modify r f := by
  simp [modifyAt, Loc.top]

@[simp] theorem keys_modifyAt (objs : Objects) (l : Loc) (f : PdfObject → PdfObject) :
    (objs.modifyAt l f).keys = objs.keys := PyDict.keys_modify _ _ _

/-- `try: v = obj[key] except KeyError: v = default`. -/
def getItemOr (objs : Objects) (o : PdfObject) (k : String) (default : PdfObject) :
    Except PdfError PdfObject :=
  match objs.getItem o k with
  | .error .keyError => .ok default
  | r => r

/-- A list method (`insert`, `append`) called on the object at `l`: only an array has one. -/
def mutateArray (objs : Objects) (l : Loc) (f : PdfObject → PdfObject) : Except PdfError Objects :=
  match objs.objectAt l with
  | some (.array _) => .ok (objs.modifyAt l f)
  | _ => .error .attributeError

theorem keys_of_mutateArray {objs objs' : Objects} {l : Loc} {f : PdfObject → PdfObject}
    (h : objs.mutateArray l f = .ok objs') : objs'.keys = objs.keys := by
  unfold mutateArray at h
  split at h <;> cases h
  exact keys_modifyAt _ _ _

theorem get?_modifyAt (objs : Objects) (l : Loc) (f : PdfObject → PdfObject) (y : Reference) :
    (objs.modifyAt l f).get? y =
      if y = l.ref then (objs.get? y).map (·.modifyAt l.path f) else objs.get? y :=
  PyDict.get?_modify _ _ _ _

theorem getObject_eq_ok {objs : Objects} {r : Reference} {o : PdfObject} :
    objs.getObject r = .ok o ↔ objs.get? r = some o := by
  unfold getObject; split <;> simp_all

end Objects

theorem exists_of_map_eq_ok {ε α β : Type} {f : α → β} {x : Except ε α} {b : β}
    (h : x.map f = .ok b) : ∃ a, x = .ok a ∧ f a = b := by
  cases x with
  | error e => cases h
  | ok a => exact ⟨a, rfl, Except.ok.inj h⟩

theorem exists_of_bind_eq_ok {ε α β : Type} {x : Except ε α} {f : α → Except ε β} {b : β}
    (h : x >>= f = .ok b) : ∃ a, x = .ok a ∧ f a = .ok b := by
  cases x with
  | error e => cases h
  | ok a => exact ⟨a, rfl, h⟩

end PyHanko

namespace PyHanko

/-- How a modelled call ends: it returns, raises, or has not ended within the fuel it was
given. Fuel bounds the loops and recursions of the source that need not terminate. -/
inductive Outcome (α : Type) where
  | ok (a : α)
  | error (e : PdfError)
  | outOfFuel
  deriving Repr

namespace Outcome

instance : Monad Outcome where
  pure := ok
  bind x f := match x with
    | ok a => f a
    | error e => error e
    | outOfFuel => outOfFuel

/-- A computation that always ends, seen as a call. -/
def ofExcept {α : Type} : Except PdfError α → Outcome α
  | .ok a => ok a
  | .error e => error e

instance : MonadLift (Except PdfError) Outcome := ⟨ofExcept⟩

instance : MonadExceptOf PdfError Outcome where
  throw := error
  tryCatch x h := match x with
    | error e => h e
    | x => x

variable {α β : Type}

@[simp] theorem pure_def (a : α) : (pure a : Outcome α) = ok a := rfl

@[simp] theorem ok_bind (a : α) (f : α → Outcome β) : (ok a >>= f) = f a := rfl

@[simp] theorem error_bind (e : PdfError) (f : α → Outcome β) : (error e >>= f) = error e := rfl

@[simp] theorem outOfFuel_bind (f : α → Outcome β) : ((outOfFuel : Outcome α) >>= f) = outOfFuel :=
  rfl

@[simp] theorem lift_ok (a : α) :
    (monadLift (Except.ok a : Except PdfError α) : Outcome α) = ok a := rfl

@[simp] theorem lift_error (e : PdfError) :
    (monadLift (Except.error e : Except PdfError α) : Outcome α) = error e := rfl

@[simp] theorem throw_def (e : PdfError) : (throw e : Outcome α) = error e := rfl

end Outcome

end PyHanko
