import AtlasCore.Lib.JsonCanon
import Mathlib.Data.Set.Insert
import Mathlib.Logic.Relation

/-!
# Objects that are shared

A JSON value has no identity; the objects a program passes around do, and who holds one can change
it.  A `Heap` is the objects that exist, a `Value` an atom or a reference to one of them.

* `Heap.thaw` is the plain copy of a value: what an object contains when it is read.
* `Heap.freeze` builds a read-only copy of a JSON value out of new objects: tuples, and proxies of
  dicts that nobody else holds.
* `World.Step` is what the holder of some objects can do: assign to a dict or a list it holds, look
  into an object, create one.  A proxy shows what its dict contains and not the dict.

`Heap.Frozen.thaw_eq` is the point: whatever the holder of everything that existed before does, with
the frozen value in its hands as well, the frozen value contains what it contained.
-/

set_option autoImplicit false

namespace Py

/-! ## The heap

Objects that can be shared and changed, so that it can be said who sees a change. -/

/-- A value without parts, which nothing can change. -/
inductive Atom where
  | null
  | bool (b : Bool)
  | int (z : ℤ)
  | float (f : Float)
  | str (s : Str)

/-- The JSON value of an atom, which says the same. -/
def Atom.json : Atom → Json
  | null => .null
  | bool b => .bool b
  | int z => .int z
  | float f => .float f
  | str s => .str s

/-- An atom, or a reference to an object. -/
inductive Value where
  | atom (a : Atom)
  | ref (address : ℕ)

/-- An object: a dict or a list, which can be assigned to, or a tuple or a `MappingProxyType` of a
dict, which cannot. -/
inductive Object where
  | dict (fields : List (Str × Value))
  | list (items : List Value)
  | tuple (items : List Value)
  | proxy (dict : ℕ)

/-- The objects that exist, each at its address. -/
abbrev Heap := List Object

/-- The values an object refers to by itself. -/
def Object.values : Object → List Value
  | dict fields => fields.map Prod.snd
  | list items => items
  | tuple items => items
  | proxy _ => []

/-- An assignment keeps the class of the object, and has one. -/
def Object.Assigns : Object → Object → Prop
  | dict _, dict _ => True
  | list _, list _ => True
  | _, _ => False

/-- No assignment reaches the object: it stays what it is, whoever holds it. -/
def Object.Fixed (o : Object) : Prop := ∀ o', ¬ o.Assigns o'

theorem Object.fixed_tuple (items : List Value) : (Object.tuple items).Fixed := fun _ h ↦ h

theorem Object.fixed_proxy (d : ℕ) : (Object.proxy d).Fixed := fun _ h ↦ h

namespace Heap

variable {heap heap' : Heap}

/-- The items of a mapping: a dict, or a proxy of one. -/
def entries (heap : Heap) : Object → Option (List (Str × Value))
  | .dict fields => some fields
  | .proxy d =>
    match heap[d]? with
    | some (.dict fields) => some fields
    | _ => none
  | _ => none

/-- A plain JSON copy, where `n` containers may be inside each other. -/
def thaw (heap : Heap) : ℕ → Value → Option Json
  | _, .atom a => some a.json
  | 0, .ref _ => none
  | n + 1, .ref a =>
    match heap[a]? with
    | none => none
    | some (.list items) => (items.mapM (heap.thaw n)).map .arr
    | some (.tuple items) => (items.mapM (heap.thaw n)).map .arr
    | some o => (heap.entries o).bind fun fields ↦
        (fields.mapM fun p ↦ (heap.thaw n p.2).map (p.1, ·)).map .obj

mutual
/-- A read-only copy, all the way down: where it is, and the heap with its objects. -/
def freeze (heap : Heap) : Json → Value × Heap
  | .null => (.atom .null, heap)
  | .bool b => (.atom (.bool b), heap)
  | .int z => (.atom (.int z), heap)
  | .float f => (.atom (.float f), heap)
  | .str s => (.atom (.str s), heap)
  | .arr items =>
    let (values, heap) := freezeItems heap items
    (.ref heap.length, heap ++ [.tuple values])
  | .obj fields =>
    let (entries, heap) := freezeFields heap fields
    (.ref (heap.length + 1), heap ++ [.dict entries, .proxy heap.length])

/-- `freeze` of the items of a list, one after the other on the same heap. -/
def freezeItems (heap : Heap) : List Json → List Value × Heap
  | [] => ([], heap)
  | v :: rest =>
    let (value, heap) := freeze heap v
    let (values, heap) := freezeItems heap rest
    (value :: values, heap)

/-- `freeze` of the values of a dict, one after the other on the same heap. -/
def freezeFields (heap : Heap) : Fields → List (Str × Value) × Heap
  | [] => ([], heap)
  | (k, v) :: rest =>
    let (value, heap) := freeze heap v
    let (entries, heap) := freezeFields heap rest
    ((k, value) :: entries, heap)
end

/-- No dict of the heap has a key twice, and no object refers to one that does not exist. -/
structure Sound (heap : Heap) : Prop where
  keys : ∀ fields, Object.dict fields ∈ heap → (fields.map Prod.fst).Nodup
  closed : ∀ o ∈ heap, ∀ a, Value.ref a ∈ o.values → a < heap.length

/-! ## What a copy is

The value that a frozen object contains is the value it was made of, with the keys as texts. -/

section lists

variable {α β : Type*} {f g : α → Option β} {xs : List α} {ys : List β}

theorem mapM_eq_some : xs.mapM f = some ys ↔ List.Forall₂ (fun x y ↦ f x = some y) xs ys := by
  induction xs generalizing ys with
  | nil => cases ys <;> simp
  | cons x xs ih =>
    rw [List.mapM_cons]
    cases hx : f x with
    | none => simp [List.forall₂_cons_left_iff, hx]
    | some y =>
      cases hxs : xs.mapM f with
      | none =>
        simp only [hxs, reduceCtorEq, false_iff] at ih
        simp [List.forall₂_cons_left_iff, hx, ih]
      | some zs =>
        simp only [hxs, Option.some.injEq] at ih
        simp [List.forall₂_cons_left_iff, hx, ← ih, eq_comm]

theorem exists_left {R : α → β → Prop} (h : List.Forall₂ R xs ys) {y : β} (hy : y ∈ ys) :
    ∃ x ∈ xs, R x y := by
  induction h with
  | nil => cases hy
  | cons hxy _ ih =>
    rcases List.mem_cons.mp hy with rfl | hy
    · exact ⟨_, List.mem_cons_self, hxy⟩
    · obtain ⟨x, hx, hxy⟩ := ih hy
      exact ⟨x, List.mem_cons_of_mem _ hx, hxy⟩

theorem forall₂_imp_mem {R S : α → β → Prop} (h : List.Forall₂ R xs ys)
    (hRS : ∀ x, ∀ y ∈ ys, R x y → S x y) : List.Forall₂ S xs ys := by
  induction h with
  | nil => exact .nil
  | cons hxy _ ih =>
    exact .cons (hRS _ _ List.mem_cons_self hxy)
      (ih fun x y hy ↦ hRS x y (List.mem_cons_of_mem _ hy))

theorem mapM_congr (h : ∀ x ∈ xs, f x = g x) : xs.mapM f = xs.mapM g := by
  induction xs with
  | nil => rfl
  | cons x xs ih =>
    rw [List.mapM_cons, List.mapM_cons, h x List.mem_cons_self,
      ih fun z hz ↦ h z (List.mem_cons_of_mem x hz)]

end lists

/-- At most `n` containers of the value are inside each other. -/
def Fits : ℕ → Json → Prop
  | 0, .arr _ => False
  | 0, .obj _ => False
  | n + 1, .arr items => ∀ v ∈ items, Fits n v
  | n + 1, .obj fields => ∀ p ∈ fields, Fits n p.2
  | _, _ => True

theorem fits_atom (n : ℕ) (a : Atom) : Fits n a.json := by
  cases a <;> simp [Atom.json, Fits]

/-- The order of the fields takes no room. -/
theorem Fits.canon {n : ℕ} {v : Json} (h : Fits n v) : Fits n v.canon := by
  induction n generalizing v with
  | zero => cases v <;> simp_all [Json.canon, Fits]
  | succ n ih =>
    cases v with
    | arr items =>
      rw [Json.canon, Fits, Json.canonItems_eq_map]
      rw [Fits] at h
      intro w hw
      obtain ⟨v, hv, rfl⟩ := List.mem_map.mp hw
      exact ih (h v hv)
    | obj fields =>
      rw [Json.canon, Fits]
      rw [Fits] at h
      intro p hp
      have hp' := (Json.sortFields_perm _).mem_iff.mp hp
      rw [Json.canonFields_eq_map] at hp'
      obtain ⟨q, hq, rfl⟩ := List.mem_map.mp hp'
      exact ih (h q hq)
    | null | bool _ | int _ | float _ | str _ => simp [Json.canon, Fits]

/-- The fields of a copy are those of the mapping, each copied. -/
def Copies (heap : Heap) (n : ℕ) (fields : List (Str × Value)) (copied : Fields) : Prop :=
  List.Forall₂ (fun p q ↦ p.1 = q.1 ∧ heap.thaw n p.2 = some q.2) fields copied

theorem mapM_entries {n : ℕ} {fields : List (Str × Value)} {copied : Fields} :
    (fields.mapM fun p ↦ (heap.thaw n p.2).map (p.1, ·)) = some copied ↔
      heap.Copies n fields copied := by
  rw [mapM_eq_some, Copies]
  have hiff : ∀ (p : Str × Value) (q : Str × Json),
      (heap.thaw n p.2).map (p.1, ·) = some q ↔ p.1 = q.1 ∧ heap.thaw n p.2 = some q.2 := by
    intro p q
    rw [Option.map_eq_some_iff]
    constructor
    · rintro ⟨v, hv, rfl⟩
      exact ⟨rfl, hv⟩
    · rintro ⟨hk, hv⟩
      exact ⟨q.2, hv, Prod.ext hk rfl⟩
  simp only [hiff]

theorem Copies.keys {n : ℕ} {fields : List (Str × Value)} {copied : Fields}
    (h : heap.Copies n fields copied) : copied.map Prod.fst = fields.map Prod.fst := by
  induction h with
  | nil => rfl
  | cons hpq _ ih => rw [List.map_cons, List.map_cons, ih, hpq.1]

theorem Copies.mem {n : ℕ} {fields : List (Str × Value)} {copied : Fields}
    (h : heap.Copies n fields copied) {q : Str × Json} (hq : q ∈ copied) :
    ∃ p ∈ fields, heap.thaw n p.2 = some q.2 := by
  obtain ⟨p, hp, hpq⟩ := exists_left h hq
  exact ⟨p, hp, hpq.2⟩

/-- **What a copy can be of**: an atom, a sequence or a mapping whose parts were copied. -/
theorem thaw_cases {n : ℕ} {v : Value} {j : Json} (h : heap.thaw n v = some j) :
    (∃ a, v = .atom a ∧ j = a.json) ∨
    (∃ m a items copied, n = m + 1 ∧ v = .ref a ∧ j = .arr copied ∧
      (heap[a]? = some (.list items) ∨ heap[a]? = some (.tuple items)) ∧
      List.Forall₂ (fun x y ↦ heap.thaw m x = some y) items copied) ∨
    (∃ m a o fields copied, n = m + 1 ∧ v = .ref a ∧ j = .obj copied ∧ heap[a]? = some o ∧
      heap.entries o = some fields ∧ heap.Copies m fields copied) := by
  cases v with
  | atom a =>
    rw [thaw] at h
    exact .inl ⟨a, rfl, (Option.some.inj h).symm⟩
  | ref a =>
    cases n with
    | zero => cases h
    | succ m =>
      rw [thaw] at h
      split at h
      · cases h
      · rename_i items hitems
        obtain ⟨copied, hcopied, rfl⟩ := Option.map_eq_some_iff.mp h
        exact .inr (.inl ⟨m, a, items, copied, rfl, rfl, rfl, .inl hitems,
          mapM_eq_some.mp hcopied⟩)
      · rename_i items hitems
        obtain ⟨copied, hcopied, rfl⟩ := Option.map_eq_some_iff.mp h
        exact .inr (.inl ⟨m, a, items, copied, rfl, rfl, rfl, .inr hitems,
          mapM_eq_some.mp hcopied⟩)
      · rename_i o _ _ ho
        obtain ⟨fields, hfields, h⟩ := Option.bind_eq_some_iff.mp h
        obtain ⟨copied, hcopied, rfl⟩ := Option.map_eq_some_iff.mp h
        exact .inr (.inr ⟨m, a, o, fields, copied, rfl, rfl, rfl, ho, hfields,
          mapM_entries.mp hcopied⟩)

/-- A copy fits into the room it was made in. -/
theorem thaw_fits {n : ℕ} {v : Value} {j : Json} (h : heap.thaw n v = some j) : Fits n j := by
  induction n generalizing v j with
  | zero =>
    obtain ⟨a, -, rfl⟩ | ⟨m, _, _, _, hm, -⟩ | ⟨m, _, _, _, _, hm, -⟩ := thaw_cases h
    · exact fits_atom 0 a
    · cases hm
    · cases hm
  | succ n ih =>
    obtain ⟨a, -, rfl⟩ | ⟨m, a, items, copied, hm, -, rfl, -, hall⟩ |
      ⟨m, a, o, fields, copied, hm, -, rfl, -, -, hcopied⟩ := thaw_cases h
    · exact fits_atom _ a
    · obtain rfl := Nat.succ.inj hm
      intro w hw
      obtain ⟨v, -, hv⟩ := exists_left hall hw
      exact ih hv
    · obtain rfl := Nat.succ.inj hm
      intro q hq
      obtain ⟨p, -, hp⟩ := hcopied.mem hq
      exact ih hp

/-- What is copied from dicts are dicts. -/
theorem thaw_wf (hs : heap.Sound) {n : ℕ} {v : Value} {j : Json} (h : heap.thaw n v = some j) :
    j.WF := by
  induction n generalizing v j with
  | zero =>
    obtain ⟨a, -, rfl⟩ | ⟨m, _, _, _, hm, -⟩ | ⟨m, _, _, _, _, hm, -⟩ := thaw_cases h
    · cases a <;> trivial
    · cases hm
    · cases hm
  | succ n ih =>
    obtain ⟨a, -, rfl⟩ | ⟨m, a, items, copied, hm, -, rfl, -, hall⟩ |
      ⟨m, a, o, fields, copied, hm, -, rfl, ho, hfields, hcopied⟩ := thaw_cases h
    · cases a <;> trivial
    · obtain rfl := Nat.succ.inj hm
      rw [Json.WF, Json.WFItems_iff]
      intro w hw
      obtain ⟨v, -, hv⟩ := exists_left hall hw
      exact ih hv
    · obtain rfl := Nat.succ.inj hm
      have hkeys : (fields.map Prod.fst).Nodup := by
        cases o with
        | dict given =>
          obtain rfl := Option.some.inj hfields
          exact hs.keys _ (List.mem_of_getElem? ho)
        | proxy d =>
          rw [entries] at hfields
          split at hfields
          · rename_i given hd
            obtain rfl := Option.some.inj hfields
            exact hs.keys _ (List.mem_of_getElem? hd)
          · cases hfields
        | list _ | tuple _ => cases hfields
      rw [Json.WF, hcopied.keys, Json.WFFields_iff]
      refine ⟨hkeys, fun q hq ↦ ?_⟩
      obtain ⟨p, -, hp⟩ := hcopied.mem hq
      exact ih hp

/-! ## What was frozen

As long as nobody reaches the hidden objects, a frozen value contains what it contained. -/

/-- The value is made of atoms, tuples and proxies of dicts in `hidden`. -/
inductive Frozen (heap : Heap) (hidden : Set ℕ) : Value → Prop
  | atom (a : Atom) : Frozen heap hidden (.atom a)
  | tuple {a : ℕ} {items : List Value} (here : heap[a]? = some (.tuple items))
      (parts : ∀ v ∈ items, Frozen heap hidden v) : Frozen heap hidden (.ref a)
  | proxy {a d : ℕ} {fields : List (Str × Value)} (here : heap[a]? = some (.proxy d))
      (behind : d ∈ hidden) (there : heap[d]? = some (.dict fields))
      (parts : ∀ p ∈ fields, Frozen heap hidden p.2) : Frozen heap hidden (.ref a)

/-- The hidden objects, and those that no assignment reaches, are as they were. -/
def Keeps (hidden : Set ℕ) (heap heap' : Heap) : Prop :=
  ∀ (a : ℕ) o, heap[a]? = some o → a ∈ hidden ∨ o.Fixed → heap'[a]? = some o

theorem Keeps.refl (hidden : Set ℕ) (heap : Heap) : Keeps hidden heap heap := fun _ _ h _ ↦ h

theorem Keeps.trans {hidden : Set ℕ} {a b c : Heap} (hab : Keeps hidden a b)
    (hbc : Keeps hidden b c) : Keeps hidden a c :=
  fun x o h hx ↦ hbc x o (hab x o h hx) hx

theorem Keeps.append (hidden : Set ℕ) (heap more : Heap) : Keeps hidden heap (heap ++ more) :=
  fun a o h _ ↦ by
    rw [List.getElem?_append_left (List.getElem?_eq_some_iff.mp h).1]
    exact h

theorem Frozen.keeps {hidden : Set ℕ} {v : Value} (hv : heap.Frozen hidden v)
    (h : Keeps hidden heap heap') : heap'.Frozen hidden v := by
  induction hv with
  | atom a => exact .atom a
  | tuple here _ ih => exact .tuple (h _ _ here (.inr (Object.fixed_tuple _))) ih
  | proxy here behind there _ ih =>
    exact .proxy (h _ _ here (.inr (Object.fixed_proxy _))) behind (h _ _ there (.inl behind)) ih

theorem Frozen.mono {hidden more : Set ℕ} {v : Value} (hv : heap.Frozen hidden v)
    (h : hidden ⊆ more) : heap.Frozen more v := by
  induction hv with
  | atom a => exact .atom a
  | tuple here _ ih => exact .tuple here ih
  | proxy here behind there _ ih => exact .proxy here (h behind) there ih

theorem thaw_tuple {a n : ℕ} {items : List Value} (here : heap[a]? = some (.tuple items)) :
    heap.thaw (n + 1) (.ref a) = (items.mapM (heap.thaw n)).map .arr := by
  rw [thaw, here]

theorem thaw_proxy {a d n : ℕ} {fields : List (Str × Value)} (here : heap[a]? = some (.proxy d))
    (there : heap[d]? = some (.dict fields)) : heap.thaw (n + 1) (.ref a) =
      (fields.mapM fun p ↦ (heap.thaw n p.2).map (p.1, ·)).map .obj := by
  rw [thaw, here]
  simp only [entries, there]
  rfl

/-- **A frozen value contains what it contained** as long as the hidden objects are kept. -/
theorem Frozen.thaw_eq {hidden : Set ℕ} {v : Value} (hv : heap.Frozen hidden v)
    (h : Keeps hidden heap heap') (n : ℕ) : heap'.thaw n v = heap.thaw n v := by
  induction hv generalizing n with
  | atom a => cases n <;> rfl
  | tuple here _ ih =>
    cases n with
    | zero => rfl
    | succ n =>
      rw [thaw_tuple here, thaw_tuple (h _ _ here (.inr (Object.fixed_tuple _))),
        mapM_congr fun v hv ↦ ih v hv n]
  | proxy here behind there _ ih =>
    cases n with
    | zero => rfl
    | succ n =>
      rw [thaw_proxy here there, thaw_proxy (h _ _ here (.inr (Object.fixed_proxy _)))
        (h _ _ there (.inl behind)), mapM_congr fun p hp ↦ by rw [ih p hp n]]

/-! ## What freezing makes

Which objects are new, and which of the old ones can be seen from them. -/

/-- The dicts from an address on, which are those that were made since the heap had that size. -/
def dictsFrom (start : ℕ) (heap : Heap) : Set ℕ :=
  {a | start ≤ a ∧ ∃ fields, heap[a]? = some (.dict fields)}

/-- The object is one of those from an address on, and no assignment reaches it. -/
def Visible (start : ℕ) (heap : Heap) (a : ℕ) : Prop :=
  start ≤ a ∧ ∃ o, heap[a]? = some o ∧ o.Fixed

/-- The objects from an address on refer to visible ones only. -/
def Apart (start : ℕ) (heap : Heap) : Prop :=
  ∀ (a : ℕ) o, start ≤ a → heap[a]? = some o → ∀ b, Value.ref b ∈ o.values → Visible start heap b

/-- The value is a frozen copy of the JSON value, made of objects from an address on. -/
structure Made (start : ℕ) (heap : Heap) (v : Value) (j : Json) : Prop where
  frozen : heap.Frozen (dictsFrom start heap) v
  reads : ∀ n, Fits n j → heap.thaw n v = some j
  visible : ∀ a, v = .ref a → Visible start heap a

variable {start start' : ℕ}

theorem keeps_of_grown (hidden : Set ℕ) (h : heap <+: heap') : Keeps hidden heap heap' := by
  obtain ⟨more, rfl⟩ := h
  exact Keeps.append hidden heap more

theorem getElem?_of_prefix (h : heap <+: heap') {a : ℕ} {o : Object} (ha : heap[a]? = some o) :
    heap'[a]? = some o := by
  obtain ⟨more, rfl⟩ := h
  rw [List.getElem?_append_left (List.getElem?_eq_some_iff.mp ha).1]
  exact ha

theorem Visible.grow {a : ℕ} (ha : Visible start' heap a) (hstart : start ≤ start')
    (h : heap <+: heap') : Visible start heap' a := by
  obtain ⟨hle, o, ho, hfixed⟩ := ha
  exact ⟨hstart.trans hle, o, getElem?_of_prefix h ho, hfixed⟩

theorem Made.grow {v : Value} {j : Json} (hv : Made start' heap v j) (hstart : start ≤ start')
    (h : heap <+: heap') : Made start heap' v j where
  frozen := by
    refine (hv.frozen.keeps (keeps_of_grown _ h)).mono ?_
    rintro a ⟨hle, fields, ha⟩
    exact ⟨hstart.trans hle, fields, getElem?_of_prefix h ha⟩
  reads n hn := by rw [hv.frozen.thaw_eq (keeps_of_grown _ h), hv.reads n hn]
  visible a ha := (hv.visible a ha).grow hstart h

/-- Objects that are added show what is visible. -/
theorem Apart.append (hapart : Apart start heap) {more : List Object}
    (h : ∀ o ∈ more, ∀ b, Value.ref b ∈ o.values → Visible start (heap ++ more) b) :
    Apart start (heap ++ more) := by
  intro a o hle ho b hb
  by_cases ha : a < heap.length
  · rw [List.getElem?_append_left ha] at ho
    exact (hapart a o hle ho b hb).grow le_rfl (List.prefix_append _ _)
  · rw [List.getElem?_append_right (not_lt.mp ha)] at ho
    exact h o (List.mem_of_getElem? ho) b hb

theorem Apart.trans (h1 : Apart start heap) (h : heap <+: heap')
    (h2 : Apart heap.length heap') (hle : start ≤ heap.length) : Apart start heap' := by
  intro a o hstart ho b hb
  by_cases ha : a < heap.length
  · have hold : heap[a]? = some o := by
      obtain ⟨o', ho'⟩ : ∃ o', heap[a]? = some o' := ⟨_, List.getElem?_eq_getElem ha⟩
      rw [ho', ← getElem?_of_prefix h ho', ho]
    exact (h1 a o hstart hold b hb).grow le_rfl h
  · exact (h2 a o (not_lt.mp ha) ho b hb).grow hle (List.prefix_refl _)

theorem apart_self (heap : Heap) : Apart heap.length heap := by
  intro a o hle ho
  exact absurd (List.getElem?_eq_some_iff.mp ho).1 (not_lt.mpr hle)

/-- An atom is its own frozen copy. -/
theorem made_atom (start : ℕ) (heap : Heap) (a : Atom) : Made start heap (.atom a) a.json where
  frozen := .atom a
  reads n _ := by cases n <;> rfl
  visible _ h := by cases h

/-- A tuple of frozen copies is one of the list. -/
theorem made_tuple {values : List Value} {items : List Json}
    (h : List.Forall₂ (Made start heap) values items) (hle : start ≤ heap.length) :
    Made start (heap ++ [.tuple values]) (.ref heap.length) (.arr items) := by
  have here : (heap ++ [Object.tuple values])[heap.length]? = some (.tuple values) := by simp
  have hgrow : ∀ {v j}, Made start heap v j → Made start (heap ++ [.tuple values]) v j :=
    fun hv ↦ hv.grow le_rfl (List.prefix_append _ _)
  refine ⟨.tuple here fun v hv ↦ ?_, fun n hn ↦ ?_, fun a ha ↦ ?_⟩
  · obtain ⟨j, -, hj⟩ := exists_left h.flip hv
    exact (hgrow hj).frozen
  · cases n with
    | zero => exact hn.elim
    | succ n =>
      rw [Fits] at hn
      rw [thaw_tuple here, mapM_eq_some.mpr, Option.map_some]
      exact forall₂_imp_mem h fun v j hj hv ↦ (hgrow hv).reads n (hn j hj)
  · obtain rfl := Value.ref.inj ha
    exact ⟨hle, _, here, Object.fixed_tuple _⟩

/-- Fields whose values are frozen copies of the fields of a dict. -/
def MadeFields (start : ℕ) (heap : Heap) (entries : List (Str × Value)) (fields : Fields) : Prop :=
  List.Forall₂ (fun p q ↦ p.1 = q.1 ∧ Made start heap p.2 q.2) entries fields

/-- A proxy of a new dict with frozen copies is one of the dict. -/
theorem made_proxy {fields : List (Str × Value)} {given : Fields}
    (h : MadeFields start heap fields given) (hle : start ≤ heap.length) :
    Made start (heap ++ [.dict fields, .proxy heap.length]) (.ref (heap.length + 1))
      (.obj given) := by
  have there : (heap ++ [Object.dict fields, .proxy heap.length])[heap.length]? =
      some (.dict fields) := by simp
  have here : (heap ++ [Object.dict fields, .proxy heap.length])[heap.length + 1]? =
      some (.proxy heap.length) := by simp
  have hgrow : ∀ {v j}, Made start heap v j →
      Made start (heap ++ [.dict fields, .proxy heap.length]) v j :=
    fun hv ↦ hv.grow le_rfl (List.prefix_append _ _)
  refine ⟨.proxy here ⟨hle, fields, there⟩ there fun p hp ↦ ?_, fun n hn ↦ ?_, fun a ha ↦ ?_⟩
  · obtain ⟨q, -, -, hq⟩ := exists_left h.flip hp
    exact (hgrow hq).frozen
  · cases n with
    | zero => exact hn.elim
    | succ n =>
      rw [Fits] at hn
      have hcopied : Copies (heap ++ [.dict fields, .proxy heap.length]) n fields given :=
        forall₂_imp_mem h fun p q hq hpq ↦ ⟨hpq.1, (hgrow hpq.2).reads n (hn q hq)⟩
      rw [thaw_proxy here there, mapM_entries.mpr hcopied, Option.map_some]
  · obtain rfl := Value.ref.inj ha
    exact ⟨by omega, _, here, Object.fixed_proxy _⟩

theorem Made.visible_of_mem {values : List Value} {items : List Json}
    (h : List.Forall₂ (Made start heap) values items) {a : ℕ} (ha : Value.ref a ∈ values) :
    Visible start heap a := by
  obtain ⟨j, -, hj⟩ := exists_left h.flip ha
  exact hj.visible a rfl

mutual
/-- **`freeze` makes a frozen copy**, out of new objects that show nothing else. -/
theorem freeze_spec : ∀ (heap : Heap) (j : Json), heap <+: (freeze heap j).2 ∧
    Apart heap.length (freeze heap j).2 ∧ Made heap.length (freeze heap j).2 (freeze heap j).1 j
  | heap, .null => ⟨List.prefix_refl _, apart_self heap, made_atom _ _ .null⟩
  | heap, .bool b => ⟨List.prefix_refl _, apart_self heap, made_atom _ _ (.bool b)⟩
  | heap, .int z => ⟨List.prefix_refl _, apart_self heap, made_atom _ _ (.int z)⟩
  | heap, .float f => ⟨List.prefix_refl _, apart_self heap, made_atom _ _ (.float f)⟩
  | heap, .str s => ⟨List.prefix_refl _, apart_self heap, made_atom _ _ (.str s)⟩
  | heap, .arr items => by
    obtain ⟨hmore, hapart, hmade⟩ := freezeItems_spec heap items
    rw [freeze]
    refine ⟨hmore.trans (List.prefix_append _ _), hapart.append fun o ho b hb ↦ ?_,
      made_tuple hmade hmore.length_le⟩
    rw [List.mem_singleton] at ho
    rw [ho] at hb
    exact (Made.visible_of_mem hmade hb).grow le_rfl (List.prefix_append _ _)
  | heap, .obj fields => by
    obtain ⟨hmore, hapart, hmade⟩ := freezeFields_spec heap fields
    rw [freeze]
    refine ⟨hmore.trans (List.prefix_append _ _), hapart.append fun o ho b hb ↦ ?_,
      made_proxy hmade hmore.length_le⟩
    rw [List.mem_cons, List.mem_singleton] at ho
    rcases ho with rfl | rfl
    · obtain ⟨p, hp, hpb⟩ := List.mem_map.mp hb
      obtain ⟨q, -, -, hq⟩ := exists_left hmade.flip hp
      exact (hq.visible b hpb).grow le_rfl (List.prefix_append _ _)
    · cases hb

theorem freezeItems_spec : ∀ (heap : Heap) (items : List Json),
    heap <+: (freezeItems heap items).2 ∧ Apart heap.length (freezeItems heap items).2 ∧
      List.Forall₂ (Made heap.length (freezeItems heap items).2) (freezeItems heap items).1 items
  | heap, [] => ⟨List.prefix_refl _, apart_self heap, .nil⟩
  | heap, v :: rest => by
    obtain ⟨hmore, hapart, hmade⟩ := freeze_spec heap v
    obtain ⟨hmore', hapart', hmade'⟩ := freezeItems_spec (freeze heap v).2 rest
    rw [freezeItems]
    exact ⟨hmore.trans hmore', hapart.trans hmore' hapart' hmore.length_le,
      .cons (hmade.grow le_rfl hmore')
        (hmade'.imp fun _ _ h ↦ h.grow hmore.length_le (List.prefix_refl _))⟩

theorem freezeFields_spec : ∀ (heap : Heap) (fields : Fields),
    heap <+: (freezeFields heap fields).2 ∧ Apart heap.length (freezeFields heap fields).2 ∧
      MadeFields heap.length (freezeFields heap fields).2 (freezeFields heap fields).1 fields
  | heap, [] => ⟨List.prefix_refl _, apart_self heap, .nil⟩
  | heap, (k, v) :: rest => by
    obtain ⟨hmore, hapart, hmade⟩ := freeze_spec heap v
    obtain ⟨hmore', hapart', hmade'⟩ := freezeFields_spec (freeze heap v).2 rest
    rw [freezeFields]
    exact ⟨hmore.trans hmore', hapart.trans hmore' hapart' hmore.length_le,
      .cons ⟨rfl, hmade.grow le_rfl hmore'⟩
        (hmade'.imp fun _ _ h ↦ ⟨h.1, h.2.grow hmore.length_le (List.prefix_refl _)⟩)⟩
end

end Heap

/-! ## What a holder can do

Everything that code with certain objects in its hands can do to a heap. -/

/-- The objects that exist, and those that some code holds. -/
structure World where
  heap : Heap
  held : Set ℕ

namespace World

/-- The values one gets from an object by looking into it; a proxy shows its dict's. -/
def shown (heap : Heap) : Object → List Value
  | .list items => items
  | .tuple items => items
  | o => ((heap.entries o).getD []).map Prod.snd

/-- The atoms, and the references to what is held. -/
def Has (w : World) (v : Value) : Prop := ∀ a, v = .ref a → a ∈ w.held

/-- What the holder does next, with the objects that are in its hands. -/
inductive Step : World → World → Prop
  /-- It assigns to a dict or a list. -/
  | assign {w : World} {a : ℕ} {o o' : Object} (held : a ∈ w.held) (here : w.heap[a]? = some o)
      (assigns : o.Assigns o') (has : ∀ v ∈ o'.values, w.Has v) :
      Step w { w with heap := w.heap.set a o' }
  /-- It takes a value out of an object. -/
  | look {w : World} {a b : ℕ} {o : Object} (held : a ∈ w.held) (here : w.heap[a]? = some o)
      (seen : .ref b ∈ shown w.heap o) : Step w { w with held := insert b w.held }
  /-- It creates an object. -/
  | create {w : World} {o : Object} (has : ∀ v ∈ o.values, w.Has v)
      (proxied : ∀ d, o = .proxy d → d ∈ w.held) :
      Step w ⟨w.heap ++ [o], insert w.heap.length w.held⟩

/-- Any number of steps, of whatever kind. -/
def Later : World → World → Prop := Relation.ReflTransGen Step

/-- Nobody can get at the hidden objects: they are not held, and no object shows one. -/
structure Hides (hidden : Set ℕ) (w : World) : Prop where
  exist : ∀ a ∈ hidden, a < w.heap.length
  unheld : ∀ a ∈ hidden, a ∉ w.held
  unshown : ∀ o ∈ w.heap, ∀ a ∈ hidden, Value.ref a ∉ o.values

variable {hidden : Set ℕ} {w w' : World}

/-- What is shown by an object are values of some object. -/
theorem exists_of_shown {heap : Heap} {a : ℕ} {o : Object} {v : Value}
    (here : heap[a]? = some o) (hv : v ∈ shown heap o) : ∃ o' ∈ heap, v ∈ o'.values := by
  cases o with
  | dict fields => exact ⟨_, List.mem_of_getElem? here, hv⟩
  | list items => exact ⟨_, List.mem_of_getElem? here, hv⟩
  | tuple items => exact ⟨_, List.mem_of_getElem? here, hv⟩
  | proxy d =>
    rw [shown, Heap.entries] at hv
    · split at hv
      · rename_i fields hd
        exact ⟨_, List.mem_of_getElem? hd, hv⟩
      · cases hv
    all_goals nofun

/-- **A step of the holder leaves the hidden objects hidden.** -/
theorem Hides.step (h : Hides hidden w) (hstep : Step w w') : Hides hidden w' := by
  cases hstep with
  | @assign a o o' held here assigns has =>
    refine ⟨fun x hx ↦ by simpa using h.exist x hx, h.unheld, fun p hp x hx hmem ↦ ?_⟩
    rcases List.mem_or_eq_of_mem_set hp with hp | rfl
    · exact h.unshown p hp x hx hmem
    · exact h.unheld x hx (has _ hmem x rfl)
  | @look a b o held here seen =>
    refine ⟨h.exist, fun x hx hmem ↦ ?_, h.unshown⟩
    rcases Set.mem_insert_iff.mp hmem with rfl | hmem
    · obtain ⟨p, hp, hv⟩ := exists_of_shown here seen
      exact h.unshown p hp x hx hv
    · exact h.unheld x hx hmem
  | @create o has proxied =>
    refine ⟨fun x hx ↦ ?_, fun x hx hmem ↦ ?_, fun p hp x hx hmem ↦ ?_⟩
    · rw [List.length_append]
      exact Nat.lt_add_right _ (h.exist x hx)
    · rcases Set.mem_insert_iff.mp hmem with rfl | hmem
      · exact absurd (h.exist _ hx) (lt_irrefl _)
      · exact h.unheld x hx hmem
    · rcases List.mem_append.mp hp with hp | hp
      · exact h.unshown p hp x hx hmem
      · rw [List.mem_singleton] at hp
        rw [hp] at hmem
        exact h.unheld x hx (has _ hmem x rfl)

/-- **A step of the holder changes no hidden and no read-only object.** -/
theorem Hides.keeps_step (h : Hides hidden w) (hstep : Step w w') :
    Heap.Keeps hidden w.heap w'.heap := by
  cases hstep with
  | @assign a o o' held here assigns has =>
    intro x p hp hkept
    have hne : a ≠ x := by
      rintro rfl
      obtain rfl := Option.some.inj (hp.symm.trans here)
      exact hkept.elim (fun hx ↦ h.unheld a hx held) fun hfixed ↦ hfixed o' assigns
    show (w.heap.set a o')[x]? = some p
    rw [List.getElem?_set_ne hne, hp]
  | look => exact Heap.Keeps.refl _ _
  | create => exact Heap.Keeps.append _ _ _

/-- Over any number of steps. -/
theorem Hides.later (h : Hides hidden w) (hlater : Later w w') :
    Hides hidden w' ∧ Heap.Keeps hidden w.heap w'.heap := by
  induction hlater with
  | refl => exact ⟨h, Heap.Keeps.refl _ _⟩
  | tail _ hstep ih => exact ⟨ih.1.step hstep, ih.2.trans (ih.1.keeps_step hstep)⟩

/-- The objects under a value that was just frozen are hidden from whoever holds all that was there
before, and the value. -/
theorem hides_freeze {heap : Heap} (hs : heap.Sound) (j : Json) :
    Hides (Heap.dictsFrom heap.length (heap.freeze j).2)
      ⟨(heap.freeze j).2, {a | a < heap.length ∨ (heap.freeze j).1 = .ref a}⟩ := by
  obtain ⟨hmore, hapart, hmade⟩ := Heap.freeze_spec heap j
  have hnot : ∀ {a}, Heap.Visible heap.length (heap.freeze j).2 a →
      a ∉ Heap.dictsFrom heap.length (heap.freeze j).2 := by
    rintro a ⟨-, o, ho, hfixed⟩ ⟨-, fields, hfields⟩
    obtain rfl := Option.some.inj (ho.symm.trans hfields)
    exact hfixed (.dict fields) trivial
  refine ⟨fun a ha ↦ ?_, fun a ha hheld ↦ ?_, fun o ho a ha hmem ↦ ?_⟩
  · obtain ⟨-, fields, hfields⟩ := ha
    exact (List.getElem?_eq_some_iff.mp hfields).1
  · rcases hheld with hlt | hv
    · exact absurd ha.1 (not_le.mpr hlt)
    · exact hnot (hmade.visible a hv) ha
  · obtain ⟨x, hx, hxo⟩ := List.mem_iff_getElem.mp ho
    by_cases hlt : x < heap.length
    · -- an object that was there before refers to nothing that came later
      obtain ⟨more, hheap⟩ := hmore
      have hold : o ∈ heap := by
        rw [← hxo]
        simp only [← hheap, List.getElem_append_left hlt, List.getElem_mem]
      exact absurd ha.1 (not_le.mpr (hs.closed o hold a hmem))
    · exact hnot (hapart x o (not_lt.mp hlt) (hxo ▸ List.getElem?_eq_getElem hx) a hmem) ha

/-- **What was frozen cannot be changed** by whoever holds all that was there before, and the frozen
value itself. -/
theorem thaw_freeze_later {heap : Heap} (hs : heap.Sound) {j : Json} {n : ℕ} (hn : Heap.Fits n j)
    (hlater : Later ⟨(heap.freeze j).2, {a | a < heap.length ∨ (heap.freeze j).1 = .ref a}⟩ w) :
    w.heap.thaw n (heap.freeze j).1 = some j := by
  obtain ⟨-, -, hmade⟩ := Heap.freeze_spec heap j
  rw [hmade.frozen.thaw_eq ((hides_freeze hs j).later hlater).2, hmade.reads n hn]

end World

end Py
