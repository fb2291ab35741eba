import Mathlib.Data.List.Infix

/-!
# Stores of mutable objects

Objects are found by references, which are handed out one after the other.  A
store that extends another one has all of its objects as they were, so that what
was read from the first can be read from the second.
-/

/-- The objects that were allocated so far. -/
structure ObjectStore (Object : Type*) where
  objects : List Object

namespace ObjectStore

variable {Object : Type*}

/-- A reference to an object. -/
abbrev Ref := Nat

/-- The reference of the object that is allocated next. -/
def next (store : ObjectStore Object) : Ref := store.objects.length

def read (store : ObjectStore Object) (ref : Ref) : Option Object := store.objects[ref]?

/-- The store with a new object, which `next` refers to. -/
def alloc (store : ObjectStore Object) (object : Object) : ObjectStore Object :=
  ⟨store.objects ++ [object]⟩

def write (store : ObjectStore Object) (ref : Ref) (object : Object) : ObjectStore Object :=
  ⟨store.objects.set ref object⟩

/-- No object of the first store was modified. -/
def Extends (before after : ObjectStore Object) : Prop := before.objects <+: after.objects

section Reading

variable {store : ObjectStore Object} {ref other : Ref} {object new : Object}

@[simp]
theorem read_alloc_self : (store.alloc object).read store.next = some object :=
  List.getElem?_concat_length

theorem read_write_self (found : store.read ref = some object) :
    (store.write ref new).read ref = some new :=
  List.getElem?_set_self (List.getElem?_eq_some_iff.mp found).1

theorem read_write_of_ne (different : ref ≠ other) :
    (store.write ref new).read other = store.read other :=
  List.getElem?_set_ne different

theorem lt_next_of_read (found : store.read ref = some object) : ref < store.next :=
  (List.getElem?_eq_some_iff.mp found).1

end Reading

namespace Extends

variable {before middle after : ObjectStore Object} {ref : Ref} {object : Object}

theorem refl (store : ObjectStore Object) : store.Extends store := List.prefix_rfl

theorem trans (first : before.Extends middle) (second : middle.Extends after) :
    before.Extends after :=
  List.IsPrefix.trans first second

theorem alloc (extension : before.Extends after) (object : Object) :
    before.Extends (after.alloc object) :=
  extension.trans (List.prefix_append _ _)

/-- Only objects that were allocated later are written to. -/
theorem write (extension : before.Extends after) (later : before.next ≤ ref) (object : Object) :
    before.Extends (after.write ref object) := by
  obtain ⟨rest, same⟩ := extension
  refine ⟨rest.set (ref - before.objects.length) object, ?_⟩
  rw [ObjectStore.write, ← same, List.set_append_right _ _ later]

theorem read (extension : before.Extends after) (found : before.read ref = some object) :
    after.read ref = some object := by
  obtain ⟨rest, same⟩ := extension
  rw [ObjectStore.read, ← same, List.getElem?_append_left (lt_next_of_read found)]
  exact found

end Extends

end ObjectStore
