import AllRelay.Control.Message
import AllRelay.Library.MultiTouch
import Mathlib.Data.List.Range
import Mathlib.Data.List.Perm.Subperm

/-!
# The pointers of the phone

The phone's `Controller` turns the touch messages of the control socket into `MotionEvent`s. A
message is about one pointer and names it by an id of the client; an event lists all pointers, by
small local ids. `PointersState` is what connects the two: it keeps the pointers that are down, and
gives a new one the lowest local id that is free.

`pointerProperties` and `pointerCoords` are two arrays that the controller allocates once. Only the
fields that an event sets are overwritten, so what an index was used for before shows through in
those it does not set (the tool type, the scroll axes).
-/

namespace AllRelay.Phone

/-- Java's `Point`. -/
structure Point where
  x : ℤ
  y : ℤ
deriving DecidableEq, Repr

/-- Java's `Pointer`. -/
structure Pointer where
  /-- The id received from the client. -/
  id : ℤ
  localId : ℕ
  /-- `null` until `setPoint`. -/
  point : Option Point
  pressure : ℚ
  up : Bool
deriving DecidableEq, Repr

/-- What the code of the controller throws. -/
inductive Throwable where
  | assertionError (message : String)
  | nullPointerException
deriving DecidableEq, Repr

/-- `TOOL_TYPE_FINGER` and `TOOL_TYPE_MOUSE`. -/
inductive ToolType where
  | finger
  | mouse
deriving DecidableEq, Repr

/-- `MotionEvent.PointerProperties`. -/
structure PointerProperties where
  id : ℕ
  toolType : ToolType
deriving DecidableEq, Repr

/-- `MotionEvent.PointerCoords`, the fields that are ever set. -/
structure PointerCoords where
  x : ℤ
  y : ℤ
  pressure : ℚ
  /-- `AXIS_HSCROLL`. -/
  hScroll : ℚ
  /-- `AXIS_VSCROLL`. -/
  vScroll : ℚ
deriving DecidableEq, Repr

namespace PointersState

/-- `MAX_POINTERS`. -/
def maxPointers : ℕ := 10

/-- `indexOf`; `none` is -1. -/
def indexOf (pointers : List Pointer) (id : ℤ) : Option ℕ :=
  pointers.findIdx? (·.id = id)

/-- `isLocalIdAvailable`. -/
def isLocalIdAvailable (pointers : List Pointer) (localId : ℕ) : Bool :=
  pointers.all (·.localId ≠ localId)

/-- `nextUnusedLocalId`; `none` is -1. -/
def nextUnusedLocalId (pointers : List Pointer) : Option ℕ :=
  (List.range maxPointers).find? (isLocalIdAvailable pointers)

/-- `getPointerIndex`: the index (`none` is -1), and the pointers afterwards. -/
def getPointerIndex (pointers : List Pointer) (id : ℤ) :
    Except Throwable (Option ℕ × List Pointer) :=
  match indexOf pointers id with
  | some index => .ok (some index, pointers)
  | none =>
    if maxPointers ≤ pointers.length then .ok (none, pointers)
    else
      match nextUnusedLocalId pointers with
      | none =>
        .error (.assertionError
          "pointers.size() < maxFingers implies that a local id is available")
      | some localId => .ok (some pointers.length, pointers ++ [⟨id, localId, none, 0, false⟩])

/-- The properties that `update` writes for a pointer. -/
def writeProperties (props : PointerProperties) (pointer : Pointer) : PointerProperties :=
  { props with id := pointer.localId }

/-- The coordinates that `update` writes for a pointer. -/
def writeCoords (coords : PointerCoords) (pointer : Pointer) : Except Throwable PointerCoords :=
  match pointer.point with
  | none => .error .nullPointerException
  | some point => .ok { coords with x := point.x, y := point.y, pressure := pointer.pressure }

/-- `cleanUp`. -/
def cleanUp (pointers : List Pointer) : List Pointer :=
  pointers.filter fun pointer ↦ !pointer.up

/-- `update`: the two arrays, and the pointers afterwards. The number of items initialized is the
number of pointers before. -/
def update (pointers : List Pointer) (props : List PointerProperties)
    (coords : List PointerCoords) :
    Except Throwable (List PointerProperties × List PointerCoords × List Pointer) := do
  let written ← (coords.zip pointers).mapM fun (c, pointer) ↦ writeCoords c pointer
  return (List.zipWith writeProperties props pointers ++ props.drop pointers.length,
    written ++ coords.drop pointers.length, cleanUp pointers)

/-! ### The invariant -/

/-- The pointers between two messages. -/
structure Inv (pointers : List Pointer) : Prop where
  ids : (pointers.map Pointer.id).Nodup
  localIds : (pointers.map Pointer.localId).Nodup
  localId_lt : ∀ p ∈ pointers, p.localId < maxPointers
  point : ∀ p ∈ pointers, p.point ≠ none
  down : ∀ p ∈ pointers, p.up = false

variable {pointers : List Pointer}

theorem Inv.nil : Inv [] :=
  ⟨.nil, .nil, nofun, nofun, nofun⟩

/-- Distinct local ids below the bound: there is room for no more pointers than that. -/
theorem length_le_maxPointers (hlocal : (pointers.map Pointer.localId).Nodup)
    (hlt : ∀ p ∈ pointers, p.localId < maxPointers) : pointers.length ≤ maxPointers := by
  have hsub : pointers.map Pointer.localId ⊆ List.range maxPointers := by
    intro i hi
    obtain ⟨p, hp, rfl⟩ := List.mem_map.1 hi
    exact List.mem_range.2 (hlt p hp)
  have hle := (hlocal.subperm hsub).length_le
  rwa [List.length_map, List.length_range] at hle

theorem isLocalIdAvailable_iff {localId : ℕ} :
    isLocalIdAvailable pointers localId ↔ localId ∉ pointers.map Pointer.localId := by
  simp [isLocalIdAvailable, List.all_eq_true]

/-- **A local id is free as long as the pointers are not all taken.** -/
theorem nextUnusedLocalId_isSome (h : pointers.length < maxPointers) :
    ∃ localId, nextUnusedLocalId pointers = some localId ∧ localId < maxPointers ∧
      localId ∉ pointers.map Pointer.localId := by
  have hfree : ∃ i ∈ List.range maxPointers, i ∉ pointers.map Pointer.localId := by
    by_contra hall
    push Not at hall
    have hle := (List.nodup_range.subperm hall).length_le
    rw [List.length_range, List.length_map] at hle
    exact absurd h (Nat.not_lt.2 hle)
  obtain ⟨i, hi, hfree⟩ := hfree
  have hsome : (nextUnusedLocalId pointers).isSome := by
    rw [nextUnusedLocalId, List.find?_isSome]
    exact ⟨i, hi, isLocalIdAvailable_iff.2 hfree⟩
  obtain ⟨localId, hlocal⟩ := Option.isSome_iff_exists.1 hsome
  refine ⟨localId, hlocal, ?_, ?_⟩
  · exact List.mem_range.1 (List.mem_of_find?_eq_some hlocal)
  · exact isLocalIdAvailable_iff.1 (List.find?_some hlocal)

/-- What `getPointerIndex` can do: find the pointer, add it, or find no room for it. -/
theorem getPointerIndex_cases (pointers : List Pointer) (id : ℤ) :
    (∃ index p, getPointerIndex pointers id = .ok (some index, pointers) ∧
        pointers[index]? = some p ∧ p.id = id) ∨
      (∃ localId, getPointerIndex pointers id =
          .ok (some pointers.length, pointers ++ [⟨id, localId, none, 0, false⟩]) ∧
        id ∉ pointers.map Pointer.id ∧ pointers.length < maxPointers ∧ localId < maxPointers ∧
          localId ∉ pointers.map Pointer.localId) ∨
      (getPointerIndex pointers id = .ok (none, pointers) ∧ id ∉ pointers.map Pointer.id ∧
        maxPointers ≤ pointers.length) := by
  rw [getPointerIndex]
  cases hindex : indexOf pointers id with
  | some index =>
    obtain ⟨hlt, hid, -⟩ := List.findIdx?_eq_some_iff_getElem.1 hindex
    refine .inl ⟨index, pointers[index], rfl, List.getElem?_eq_getElem hlt, ?_⟩
    simpa using hid
  | none =>
    have hid : id ∉ pointers.map Pointer.id := by
      intro hmem
      obtain ⟨p, hp, rfl⟩ := List.mem_map.1 hmem
      have := List.findIdx?_eq_none_iff.1 hindex p hp
      simp at this
    by_cases hfull : maxPointers ≤ pointers.length
    · exact .inr (.inr ⟨if_pos hfull, hid, hfull⟩)
    · have hroom := Nat.lt_of_not_le hfull
      obtain ⟨localId, hlocal, hlt, hfree⟩ := nextUnusedLocalId_isSome hroom
      refine .inr (.inl ⟨localId, ?_, hid, hroom, hlt, hfree⟩)
      simp only [hlocal]
      exact if_neg hfull

/-- With a point for each pointer, `update` throws nothing. -/
theorem update_eq (hpoint : ∀ p ∈ pointers, p.point ≠ none) (props : List PointerProperties)
    (coords : List PointerCoords) :
    ∃ written : List PointerCoords, update pointers props coords =
        .ok (List.zipWith writeProperties props pointers ++ props.drop pointers.length,
          written ++ coords.drop pointers.length, cleanUp pointers) ∧
      List.Forall₂ (fun cp w ↦ writeCoords cp.1 cp.2 = .ok w) (coords.zip pointers) written := by
  have hwritten : ∀ cps : List (PointerCoords × Pointer), (∀ cp ∈ cps, cp.2 ∈ pointers) →
      ∃ written : List PointerCoords,
        cps.mapM (fun cp ↦ writeCoords cp.1 cp.2) = .ok written ∧
          List.Forall₂ (fun cp w ↦ writeCoords cp.1 cp.2 = .ok w) cps written := by
    intro cps
    induction cps with
    | nil => exact fun _ ↦ ⟨[], rfl, .nil⟩
    | cons cp cps ih =>
      intro hmem
      obtain ⟨written, hok, hall⟩ := ih fun x hx ↦ hmem x (List.mem_cons_of_mem _ hx)
      obtain ⟨point, hp⟩ := Option.ne_none_iff_exists'.1
        (hpoint cp.2 (hmem cp List.mem_cons_self))
      have hw : writeCoords cp.1 cp.2 =
          .ok { cp.1 with x := point.x, y := point.y, pressure := cp.2.pressure } := by
        rw [writeCoords, hp]
      refine ⟨_ :: written, ?_, .cons hw hall⟩
      rw [List.mapM_cons, hw, hok]
      rfl
  obtain ⟨written, hok, hall⟩ :=
    hwritten (coords.zip pointers) fun cp hcp ↦ (List.of_mem_zip hcp).2
  refine ⟨written, ?_, hall⟩
  rw [update, hok]
  rfl

/-! ### One pointer among the others -/

/-- The ids of the pointers, with their local ids. -/
def entries (pointers : List Pointer) : List (ℤ × ℕ) :=
  pointers.map fun p ↦ (p.id, p.localId)

@[simp]
theorem map_fst_entries (pointers : List Pointer) :
    (entries pointers).map Prod.fst = pointers.map Pointer.id :=
  List.map_map

@[simp]
theorem map_snd_entries (pointers : List Pointer) :
    (entries pointers).map Prod.snd = pointers.map Pointer.localId :=
  List.map_map

@[simp]
theorem length_entries (pointers : List Pointer) : (entries pointers).length = pointers.length :=
  List.length_map _

/-- The pointers `q` once the pointer of a message is among them, at `index`. -/
structure Entered (pointers : List Pointer) (id : ℤ) (index : ℕ) (q : List Pointer) : Prop where
  ids : (q.map Pointer.id).Nodup
  localIds : (q.map Pointer.localId).Nodup
  localId_lt : ∀ p ∈ q, p.localId < maxPointers
  entries_eq : ∃ fresh, entries q = MultiTouch.enter (entries pointers) id fresh
  getElem_index : ∃ p, q[index]? = some p ∧ p.id = id
  others : ∀ p ∈ q, p.id ≠ id → p ∈ pointers

/-- The pointer of a message enters, unless there is no room for it. -/
theorem getPointerIndex_entered (hs : Inv pointers) (id : ℤ) :
    (getPointerIndex pointers id = .ok (none, pointers) ∧ id ∉ pointers.map Pointer.id ∧
        maxPointers ≤ pointers.length) ∨
      ∃ index q, getPointerIndex pointers id = .ok (some index, q) ∧ Entered pointers id index q ∧
        (id ∈ pointers.map Pointer.id ∨ pointers.length < maxPointers) := by
  obtain ⟨index, p, hget, hp, hid⟩ | ⟨localId, hget, hid, hroom, hlt, hfree⟩ | hfull :=
    getPointerIndex_cases pointers id
  · have hmem : id ∈ pointers.map Pointer.id :=
      List.mem_map.2 ⟨p, List.mem_of_getElem? hp, hid⟩
    refine .inr ⟨index, pointers, hget, ⟨hs.ids, hs.localIds, hs.localId_lt, ⟨0, ?_⟩, ⟨p, hp, hid⟩,
      fun q hq _ ↦ hq⟩, .inl hmem⟩
    rw [MultiTouch.enter_of_mem (by rwa [map_fst_entries])]
  · refine .inr ⟨pointers.length, _, hget, ⟨?_, ?_, ?_, ⟨localId, ?_⟩,
      ⟨⟨id, localId, none, 0, false⟩, by simp, rfl⟩, ?_⟩, .inr hroom⟩
    · rw [List.map_append, List.map_singleton, ← List.concat_eq_append]
      exact hs.ids.concat hid
    · rw [List.map_append, List.map_singleton, ← List.concat_eq_append]
      exact hs.localIds.concat hfree
    · intro q hq
      rcases List.mem_append.1 hq with hq | hq
      · exact hs.localId_lt q hq
      · rw [List.mem_singleton.1 hq]
        exact hlt
    · rw [MultiTouch.enter_of_not_mem (by rwa [map_fst_entries]), entries, List.map_append]
      rfl
    · intro q hq hne
      rcases List.mem_append.1 hq with hq | hq
      · exact hq
      · rw [List.mem_singleton.1 hq] at hne
        exact absurd rfl hne
  · exact .inl hfull

/-- With distinct keys, to modify an item is to modify the items with its key. -/
theorem modify_eq_map {α β : Type*} [DecidableEq β] {key : α → β} {f : α → α} {a : α} :
    ∀ {l : List α} {i : ℕ}, (l.map key).Nodup → l[i]? = some a →
      l.modify i f = l.map fun b ↦ if key b = key a then f b else b
  | [], _, _, h => by simp at h
  | b :: l, 0, hkeys, h => by
    obtain rfl : b = a := by simpa using h
    have hrest : l.map (fun c ↦ if key c = key b then f c else c) = l := by
      rw [List.map_cons, List.nodup_cons] at hkeys
      refine (List.map_congr_left fun c hc ↦ if_neg fun heq ↦ ?_).trans (List.map_id l)
      exact hkeys.1 (heq ▸ List.mem_map_of_mem hc)
    rw [List.map_cons, hrest, if_pos rfl, List.modify_zero_cons]
  | b :: l, i + 1, hkeys, h => by
    rw [List.map_cons, List.nodup_cons] at hkeys
    rw [List.getElem?_cons_succ] at h
    have hne : key b ≠ key a := fun heq ↦
      hkeys.1 (heq ▸ List.mem_map_of_mem (List.mem_of_getElem? h))
    rw [List.modify_succ_cons, modify_eq_map hkeys.2 h, List.map_cons, if_neg hne]

namespace Entered

variable {id : ℤ} {index : ℕ} {q : List Pointer} {point : Point} {pressure : ℚ} {up : Bool}

/-- The pointer takes what the message says of it. -/
def set (id : ℤ) (point : Point) (pressure : ℚ) (up : Bool) (p : Pointer) : Pointer :=
  if p.id = id then { p with point := some point, pressure, up } else p

@[simp]
theorem set_id (p : Pointer) : (set id point pressure up p).id = p.id := by
  unfold set
  split <;> rfl

@[simp]
theorem set_localId (p : Pointer) : (set id point pressure up p).localId = p.localId := by
  unfold set
  split <;> rfl

theorem index_eq (h : Entered pointers id index q) : index = (q.map Pointer.id).idxOf id := by
  obtain ⟨p, hp, rfl⟩ := h.getElem_index
  obtain ⟨hlt, rfl⟩ := List.getElem?_eq_some_iff.1 hp
  have hlt' : index < (q.map Pointer.id).length := by rwa [List.length_map]
  have := h.ids.idxOf_getElem index hlt'
  rw [List.getElem_map] at this
  exact this.symm

theorem modify_eq (h : Entered pointers id index q) :
    (q.modify index fun p ↦ { p with point := some point, pressure, up }) =
      q.map (set id point pressure up) := by
  obtain ⟨p, hp, rfl⟩ := h.getElem_index
  exact modify_eq_map h.ids hp

theorem point_ne_none (h : Entered pointers id index q) (hs : Inv pointers) (point : Point)
    (pressure : ℚ) (up : Bool) :
    ∀ p ∈ q.map (set id point pressure up), p.point ≠ none := by
  intro p hp
  obtain ⟨p, hq, rfl⟩ := List.mem_map.1 hp
  by_cases hid : p.id = id
  · simp [set, hid]
  · rw [set, if_neg hid]
    exact hs.point p (h.others p hq hid)

/-- What is left are the other pointers, and this one if it is not up. -/
theorem cleanUp_eq (h : Entered pointers id index q) (hs : Inv pointers) :
    cleanUp (q.map (set id point pressure up)) =
      (q.filter fun p ↦ !(decide (p.id = id) && up)).map (set id point pressure up) := by
  rw [cleanUp, List.filter_map]
  refine congrArg _ (List.filter_congr fun p hp ↦ ?_)
  by_cases hid : p.id = id
  · simp [set, hid]
  · simp [set, hid, hs.down p (h.others p hp hid)]

theorem entries_cleanUp (h : Entered pointers id index q) (hs : Inv pointers) :
    entries (cleanUp (q.map (set id point pressure up))) =
      if up then (entries q).filter (·.1 ≠ id) else entries q := by
  rw [h.cleanUp_eq hs]
  cases up with
  | false => simp [entries, Function.comp_def]
  | true => simp [entries, Function.comp_def, List.filter_map]

/-- The invariant holds again. -/
theorem inv (h : Entered pointers id index q) (hs : Inv pointers) :
    Inv (cleanUp (q.map (set id point pressure up))) := by
  have hsub : (cleanUp (q.map (set id point pressure up))).Sublist
      (q.map (set id point pressure up)) := List.filter_sublist
  have hmap : (q.map (set id point pressure up)).map Pointer.id = q.map Pointer.id := by
    simp [Function.comp_def]
  have hmapLocal : (q.map (set id point pressure up)).map Pointer.localId =
      q.map Pointer.localId := by
    simp [Function.comp_def]
  refine ⟨(hmap ▸ h.ids).sublist (hsub.map _), (hmapLocal ▸ h.localIds).sublist (hsub.map _), ?_,
    fun p hp ↦ h.point_ne_none hs point pressure up p (hsub.subset hp), fun p hp ↦ ?_⟩
  · intro p hp
    obtain ⟨p, hq, rfl⟩ := List.mem_map.1 (hsub.subset hp)
    rw [set_localId]
    exact h.localId_lt p hq
  · simpa using (List.mem_filter.1 hp).2

end Entered

/-! ### The arrays -/

/-- A pointer as an event lists it: local id, coordinates and pressure. -/
def shown (p : Pointer) : Option (ℕ × ℤ × ℤ × ℚ) :=
  p.point.map fun point ↦ (p.localId, point.x, point.y, p.pressure)

/-- The same of an item of the two arrays. -/
def item (i : PointerProperties × PointerCoords) : ℕ × ℤ × ℤ × ℚ :=
  (i.1.id, i.2.x, i.2.y, i.2.pressure)

/-- The items that `update` writes list the pointers, in order. -/
theorem items_eq {written : List PointerCoords} :
    ∀ {pointers : List Pointer} {props : List PointerProperties} {coords : List PointerCoords},
      pointers.length ≤ props.length → pointers.length ≤ coords.length →
      List.Forall₂ (fun cp w ↦ writeCoords cp.1 cp.2 = .ok w) (coords.zip pointers) written →
      (((List.zipWith writeProperties props pointers ++ props.drop pointers.length).zip
          (written ++ coords.drop pointers.length)).take pointers.length).map (some ∘ item) =
        pointers.map shown := by
  induction written with
  | nil =>
    intro pointers props coords hprops hcoords h
    rcases pointers with _ | ⟨p, pointers⟩
    · rfl
    · obtain ⟨c, coords, rfl⟩ := List.exists_cons_of_length_pos (Nat.lt_of_lt_of_le
        (Nat.succ_pos pointers.length) hcoords)
      cases h
  | cons w written ih =>
    intro pointers props coords hprops hcoords h
    rcases pointers with _ | ⟨p, pointers⟩
    · rfl
    · obtain ⟨q, props, rfl⟩ := List.exists_cons_of_length_pos (Nat.lt_of_lt_of_le
        (Nat.succ_pos pointers.length) hprops)
      obtain ⟨c, coords, rfl⟩ := List.exists_cons_of_length_pos (Nat.lt_of_lt_of_le
        (Nat.succ_pos pointers.length) hcoords)
      rw [List.zip_cons_cons, List.forall₂_cons] at h
      have hrest := ih (Nat.le_of_succ_le_succ hprops) (Nat.le_of_succ_le_succ hcoords) h.2
      have hitem : some (item (writeProperties q p, w)) = shown p := by
        have hw := h.1
        dsimp only [writeCoords] at hw
        cases hpoint : p.point with
        | none =>
          rw [hpoint] at hw
          cases hw
        | some point =>
          rw [hpoint] at hw
          obtain rfl := Except.ok.inj hw
          rw [shown, hpoint]
          rfl
      rw [List.zipWith_cons_cons, List.length_cons, List.drop_succ_cons, List.drop_succ_cons,
        List.cons_append, List.cons_append, List.zip_cons_cons, List.take_succ_cons, List.map_cons,
        List.map_cons, hrest]
      exact congrArg (· :: _) hitem

/-- **`update`** lists the pointers in the arrays, and keeps their lengths. -/
theorem update_spec (props : List PointerProperties) (coords : List PointerCoords)
    (hpoint : ∀ p ∈ pointers, p.point ≠ none) (hprops : pointers.length ≤ props.length)
    (hcoords : pointers.length ≤ coords.length) :
    ∃ props' coords', update pointers props coords = .ok (props', coords', cleanUp pointers) ∧
      props'.length = props.length ∧ coords'.length = coords.length ∧
        ((props'.zip coords').take pointers.length).map (some ∘ item) = pointers.map shown := by
  obtain ⟨written, hok, hall⟩ := update_eq hpoint props coords
  have hwritten : written.length = pointers.length := by
    rw [← hall.length_eq, List.length_zip, Nat.min_eq_right hcoords]
  refine ⟨_, _, hok, ?_, ?_, items_eq hprops hcoords hall⟩
  · rw [List.length_append, List.length_zipWith, List.length_drop]
    omega
  · rw [List.length_append, List.length_drop]
    omega

end PointersState

end AllRelay.Phone
