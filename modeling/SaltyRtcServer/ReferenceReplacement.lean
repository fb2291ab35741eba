import Mathlib.Data.List.TakeWhile
import SaltyRtcServer.ReferenceGraph

/-!
# Redirecting references

Every write through a path takes one reference away from the old object and
leaves its other references in place, although the keys of a dictionary move.
Afterwards the old object is still in tuples, behind unknown relations, in
attributes that cannot be written and, if one of these raises
`AttributeError`, in the attributes that are listed after it.
-/

namespace SaltyRtcServer

/-- What the contents of a source refer to, without the conditions on its keys. -/
inductive ContentsView
  | nothing
  | list (items : List ObjectId)
  | tuple (items : List ObjectId)
  | dict (entries : List (ObjectId × ObjectId))
  | cell (content : ObjectId)
  | frame (locals : List (String × ObjectId))
  deriving DecidableEq

namespace ContentsView

/-- Every reference to the old object is redirected, except in a tuple. -/
def redirected (old new : ObjectId) : ContentsView → ContentsView
  | .nothing => .nothing
  | .list items => .list (items.map (redirect old new))
  | .tuple items => .tuple items
  | .dict entries => .dict (entries.map (Prod.map (redirect old new) (redirect old new)))
  | .cell content => .cell (redirect old new content)
  | .frame locals => .frame (locals.map (Prod.map id (redirect old new)))

/-- All objects that the contents refer to, as often as they do. -/
def targets : ContentsView → List ObjectId
  | .nothing => []
  | .list items | .tuple items => items
  | .dict entries => entries.map Prod.fst ++ entries.map Prod.snd
  | .cell content => [content]
  | .frame locals => locals.map Prod.snd

def isTuple : ContentsView → Bool
  | .tuple _ => true
  | _ => false

/-- The same, up to the order of the entries of a dictionary. -/
inductive Same : ContentsView → ContentsView → Prop
  | refl (view : ContentsView) : Same view view
  | dict {entries others : List (ObjectId × ObjectId)} :
      entries.Perm others → Same (.dict entries) (.dict others)

theorem Same.trans {one other third : ContentsView} (first : one.Same other)
    (second : other.Same third) : one.Same third := by
  cases first with
  | refl => exact second
  | dict perm =>
      cases second with
      | refl => exact .dict perm
      | dict more => exact .dict (perm.trans more)

theorem Same.targets {one other : ContentsView} (same : one.Same other) :
    one.targets.Perm other.targets := by
  cases same with
  | refl => exact List.Perm.refl _
  | dict perm => exact (perm.map _).append (perm.map _)

theorem targets_redirected (old new : ObjectId) {view : ContentsView}
    (movable : view.isTuple = false) :
    (view.redirected old new).targets = view.targets.map (redirect old new) := by
  cases view with
  | tuple items => contradiction
  | _ => simp [redirected, ContentsView.targets, Function.comp_def]

/-- Nothing is redirected where the old object is absent. -/
theorem redirected_of_absent {old new : ObjectId} {view : ContentsView}
    (absent : old ∉ view.targets) :
    (view.redirected old new).targets = view.targets.map (redirect old new) := by
  cases view with
  | tuple items => exact (map_redirect absent).symm
  | _ => exact targets_redirected old new rfl

end ContentsView

namespace ReferrerContents

variable {Content : Type*} {contentOf : ObjectId → Content}

def view : ReferrerContents contentOf → ContentsView
  | .nothing => .nothing
  | .list items => .list items
  | .tuple items => .tuple items
  | .dict mapping => .dict mapping.entries
  | .cell content => .cell content
  | .frame locals => .frame locals.entries

/-- An old key is not its own value, and the new object is no other key beside it. -/
def Fits (old new : ObjectId) : ReferrerContents contentOf → Prop
  | .dict mapping => ∀ entry ∈ mapping.entries, entry.1 = old → entry.2 ≠ old ∧
      ∀ other ∈ mapping.entries, contentOf other.1 = contentOf new → other.1 = old
  | _ => True

variable {old new : ObjectId} {contents : ReferrerContents contentOf}

theorem map_entries_redirect {Key : Type*} {entries : List (Key × ObjectId)} (onKey : Key → Key)
    (keys : ∀ entry ∈ entries, onKey entry.1 = entry.1) (absent : keysOf old entries = []) :
    entries.map (Prod.map onKey (redirect old new)) = entries := by
  rw [keysOf_eq_nil_iff] at absent
  conv_rhs => rw [← List.map_id entries]
  apply List.map_congr_left
  intro entry mem
  have other : entry.2 ≠ old := fun same => absent (same ▸ List.mem_map_of_mem mem)
  rw [Prod.map_apply', keys entry mem, redirect, if_neg other]
  rfl

/-- Nothing is redirected in contents that do not refer to the old object. -/
theorem redirected_of_unrelated (unrelated : contents.relationsTo old = []) :
    contents.view.redirected old new = contents.view := by
  cases contents with
  | nothing | tuple items => rfl
  | frame locals =>
      rw [relationsTo, List.map_eq_nil_iff] at unrelated
      simp only [view, ContentsView.redirected]
      rw [map_entries_redirect id (fun _ _ => rfl) unrelated]
  | list items =>
      rw [relationsTo, List.map_eq_nil_iff, positions_eq_nil_iff] at unrelated
      simp only [view, ContentsView.redirected]
      rw [map_redirect unrelated]
  | cell content =>
      have other : content ≠ old := by
        rintro rfl
        simp [relationsTo] at unrelated
      simp only [view, ContentsView.redirected]
      rw [redirect, if_neg other]
  | dict mapping =>
      rw [relationsTo, List.append_eq_nil_iff, List.map_eq_nil_iff, List.map_eq_nil_iff,
        positions_eq_nil_iff] at unrelated
      simp only [view, ContentsView.redirected]
      rw [map_entries_redirect _ (fun entry mem => ?_) unrelated.1]
      have other : entry.1 ≠ old := fun same => unrelated.2 (same ▸ List.mem_map_of_mem mem)
      rw [redirect, if_neg other]

theorem relationsTo_eq_nil_iff :
    contents.relationsTo old = [] ↔ old ∉ contents.view.targets := by
  cases contents with
  | nothing => simp [relationsTo, view, ContentsView.targets]
  | frame locals =>
      rw [relationsTo, List.map_eq_nil_iff, keysOf_eq_nil_iff]
      rfl
  | list items | tuple items =>
      rw [relationsTo, List.map_eq_nil_iff, positions_eq_nil_iff]
      rfl
  | cell content =>
      by_cases same : content = old
      · simp [relationsTo, view, ContentsView.targets, same]
      · simp [relationsTo, view, ContentsView.targets, same, Ne.symm same]
  | dict mapping =>
      rw [relationsTo, List.append_eq_nil_iff, List.map_eq_nil_iff, List.map_eq_nil_iff,
        keysOf_eq_nil_iff, positions_eq_nil_iff, view, ContentsView.targets, List.mem_append,
        not_or, and_comm]

variable [DecidableEq Content]

theorem foldl_tuple (items : List ObjectId) (relations : List ReferenceRelation) :
    relations.foldl (write new) (.tuple items : ReferrerContents contentOf) = .tuple items := by
  induction relations with
  | nil => rfl
  | cons relation rest ih => exact ih

theorem isTuple_write (relation : ReferenceRelation) :
    (contents.write new relation).view.isTuple = contents.view.isTuple := by
  unfold write
  split <;> rfl

theorem mem_keys_of_mem_keysOf {Key : Type*} {entries : List (Key × ObjectId)} {key : Key}
    (mem : key ∈ keysOf old entries) : key ∈ entries.map Prod.fst := by
  obtain ⟨entry, kept, rfl⟩ := List.mem_map.mp mem
  exact List.mem_map_of_mem (List.mem_filter.mp kept).1

/-- Assignment to a name of an object or a frame. -/
theorem entries_set (fields : PythonDict String ObjectId) {name : String}
    (present : name ∈ fields.keys) (value : ObjectId) : (fields.set name value).entries =
      fields.entries.map fun entry => if entry.1 = name then (entry.1, value) else entry := by
  rw [PythonDict.set, dif_pos present]
  apply List.map_congr_left
  intro entry _
  rw [PythonDict.replaceEntry]
  by_cases same : entry.1 = name <;> simp [same]

theorem relationsTo_setItem (different : old ≠ new) (mapping : ObjectDict contentOf)
    {key : ObjectId} (mem : key ∈ keysOf old mapping.entries) :
    (ReferrerContents.dict (mapping.setItem key new)).relationsTo old =
      ((ReferrerContents.dict mapping).relationsTo old).erase (.item key) := by
  have entries := mapping.entries_setItem (mem_keys_of_mem_keysOf mem) new
  have keys : (mapping.setItem key new).entries.map Prod.fst = mapping.entries.map Prod.fst := by
    rw [entries, List.map_map]
    apply List.map_congr_left
    intro entry _
    by_cases same : entry.1 = key <;> simp [same]
  simp only [relationsTo]
  rw [keys, entries, keysOf_map different mapping.nodup_keys,
    List.erase_append_left _ (List.mem_map_of_mem mem),
    List.map_erase fun _ _ => ReferenceRelation.item.inj]

theorem exists_entry_of_position {entries : List (ObjectId × ObjectId)} {position : Nat}
    (mem : position ∈ positions old (entries.map Prod.fst)) :
    ∃ value, entries[position]? = some (old, value) := by
  have found := mem_positions.mp mem
  rw [List.getElem?_map, Option.map_eq_some_iff] at found
  obtain ⟨⟨key, value⟩, found, same⟩ := found
  obtain rfl : key = old := same
  exact ⟨value, found⟩

theorem relationsTo_replaceKey (different : old ≠ new) (mapping : ObjectDict contentOf)
    (fits : (ReferrerContents.dict mapping).Fits old new) {position : Nat}
    (mem : position ∈ positions old (mapping.entries.map Prod.fst)) :
    (ReferrerContents.dict (mapping.replaceKey position new)).relationsTo old =
      ((ReferrerContents.dict mapping).relationsTo old).erase (.key position) := by
  obtain ⟨value, found⟩ := exists_entry_of_position mem
  obtain ⟨notOld, fresh⟩ := fits _ (List.mem_of_getElem? found) rfl
  have entries := mapping.entries_replaceKey found fresh
  have values : keysOf old (mapping.replaceKey position new).entries =
      keysOf old mapping.entries := by
    rw [entries, keysOf, keysOf, List.filter_append, List.filter_filter]
    have last : [(new, value)].filter (fun entry => decide (entry.2 = old)) = [] := by
      simp [notOld]
    rw [last, List.append_nil]
    congr 1
    apply List.filter_congr
    intro entry mem
    by_cases own : entry.1 = old
    · simp [(fits entry mem own).1]
    · simp [own]
  have gone : positions old ((mapping.replaceKey position new).entries.map Prod.fst) = [] := by
    rw [positions_eq_nil_iff, entries, List.map_append, List.mem_append]
    rintro (kept | last)
    · obtain ⟨entry, mem, same⟩ := List.mem_map.mp kept
      exact of_decide_eq_true (List.mem_filter.mp mem).2 same
    · exact different (List.mem_singleton.mp last)
  have only : positions old (mapping.entries.map Prod.fst) = [position] :=
    positions_of_nodup mapping.nodup_keys (mem_positions.mp mem)
  simp only [relationsTo]
  rw [values, gone, only, List.map_nil, List.append_nil, List.map_singleton,
    List.erase_append_right _ (by simp), List.erase_cons_head, List.append_nil]

/-- Writing through a relation leaves the other relations to the old object. -/
theorem relationsTo_write (different : old ≠ new) (fits : contents.Fits old new)
    (movable : contents.view.isTuple = false) {relation : ReferenceRelation}
    (refers : relation ∈ contents.relationsTo old) :
    ((contents.write new relation).relationsTo old).Perm
      ((contents.relationsTo old).erase relation) := by
  cases contents with
  | nothing | tuple items => contradiction
  | frame locals =>
      obtain ⟨name, mem, rfl⟩ := List.mem_map.mp refers
      apply List.Perm.of_eq
      simp only [write, relationsTo]
      rw [entries_set locals (mem_keys_of_mem_keysOf mem), keysOf_map different locals.nodup,
        List.map_erase fun _ _ => ReferenceRelation.localVar.inj]
  | list items =>
      obtain ⟨position, mem, rfl⟩ := List.mem_map.mp refers
      apply List.Perm.of_eq
      simp only [write, relationsTo]
      rw [positions_set different, List.map_erase fun _ _ => ReferenceRelation.index.inj]
  | cell content =>
      obtain ⟨same, rfl⟩ : content = old ∧ relation = .content := by
        simp only [relationsTo] at refers
        split at refers
        · next same => exact ⟨same, List.mem_singleton.mp refers⟩
        · contradiction
      simp [write, relationsTo, same, Ne.symm different]
  | dict mapping =>
      rcases List.mem_append.mp refers with value | key
      · obtain ⟨key, mem, rfl⟩ := List.mem_map.mp value
        exact List.Perm.of_eq (relationsTo_setItem different mapping mem)
      · obtain ⟨position, mem, rfl⟩ := List.mem_map.mp key
        exact List.Perm.of_eq (relationsTo_replaceKey different mapping fits mem)

theorem map_redirect_entry {Key : Type*} [DecidableEq Key] (onKey : Key → Key)
    {entries : List (Key × ObjectId)} {key : Key} (mem : key ∈ keysOf old entries)
    (distinct : (entries.map Prod.fst).Nodup) :
    (entries.map fun entry => if entry.1 = key then (entry.1, new) else entry).map
        (Prod.map onKey (redirect old new)) =
      entries.map (Prod.map onKey (redirect old new)) := by
  obtain ⟨found, kept, rfl⟩ := List.mem_map.mp mem
  obtain ⟨present, value⟩ := List.mem_filter.mp kept
  rw [List.map_map]
  apply List.map_congr_left
  intro entry memEntry
  by_cases same : entry.1 = found.1
  · have equal : entry = found := List.inj_on_of_nodup_map distinct memEntry present same
    subst equal
    rw [Function.comp_apply, if_pos rfl]
    have stored : entry.2 = old := of_decide_eq_true value
    simp [Prod.map, redirect_new, stored, redirect_old]
  · rw [Function.comp_apply, if_neg same]

theorem map_redirect_replaceKey (mapping : ObjectDict contentOf)
    (fits : (ReferrerContents.dict mapping).Fits old new) {position : Nat}
    (mem : position ∈ positions old (mapping.entries.map Prod.fst)) :
    ((mapping.replaceKey position new).entries.map
        (Prod.map (redirect old new) (redirect old new))).Perm
      (mapping.entries.map (Prod.map (redirect old new) (redirect old new))) := by
  obtain ⟨value, found⟩ := exists_entry_of_position mem
  have entries := mapping.entries_replaceKey found (fits _ (List.mem_of_getElem? found) rfl).2
  have split := mapping.perm_cons_filter (List.mem_of_getElem? found)
  refine List.Perm.trans ?_ (split.map _).symm
  rw [entries, List.map_append, List.map_singleton, List.map_cons]
  simp only [Prod.map, redirect_new, redirect_old]
  exact List.perm_append_singleton _ _

/-- Writing through a relation changes nothing but one reference to the old object. -/
theorem redirected_write (fits : contents.Fits old new) {relation : ReferenceRelation}
    (refers : relation ∈ contents.relationsTo old) :
    ((contents.write new relation).view.redirected old new).Same
      (contents.view.redirected old new) := by
  cases contents with
  | nothing | tuple items => exact .refl _
  | frame locals =>
      obtain ⟨name, mem, rfl⟩ := List.mem_map.mp refers
      simp only [write, view, ContentsView.redirected]
      rw [entries_set locals (mem_keys_of_mem_keysOf mem), map_redirect_entry id mem locals.nodup]
      exact .refl _
  | list items =>
      obtain ⟨position, mem, rfl⟩ := List.mem_map.mp refers
      simp only [write, view, ContentsView.redirected]
      have found := mem_positions.mp mem
      have same : (items.map (redirect old new))[position]? = some new := by
        rw [List.getElem?_map, found, Option.map_some, redirect_old]
      rw [List.map_set, redirect_new, list_set_eq_self same]
      exact .refl _
  | cell content =>
      obtain ⟨same, rfl⟩ : content = old ∧ relation = .content := by
        simp only [relationsTo] at refers
        split at refers
        · next same => exact ⟨same, List.mem_singleton.mp refers⟩
        · contradiction
      simp only [write, view, ContentsView.redirected]
      rw [same, redirect_new, redirect_old]
      exact .refl _
  | dict mapping =>
      rcases List.mem_append.mp refers with value | key
      · obtain ⟨key, mem, rfl⟩ := List.mem_map.mp value
        simp only [write, view, ContentsView.redirected]
        rw [mapping.entries_setItem (mem_keys_of_mem_keysOf mem),
          map_redirect_entry _ mem mapping.nodup_keys]
        exact .refl _
      · obtain ⟨position, mem, rfl⟩ := List.mem_map.mp key
        exact .dict (map_redirect_replaceKey mapping fits mem)

theorem fits_write (different : old ≠ new) (fits : contents.Fits old new)
    {relation : ReferenceRelation} (refers : relation ∈ contents.relationsTo old) :
    (contents.write new relation).Fits old new := by
  cases contents with
  | nothing | list items | tuple items | cell content | frame locals =>
      unfold write
      split <;> trivial
  | dict mapping =>
      rcases List.mem_append.mp refers with value | key
      · obtain ⟨key, mem, rfl⟩ := List.mem_map.mp value
        have entries := mapping.entries_setItem (mem_keys_of_mem_keysOf mem) new
        have sameKey (entry : ObjectId × ObjectId) :
            (if entry.1 = key then (entry.1, new) else entry).1 = entry.1 := by
          split <;> rfl
        intro after memAfter own
        rw [entries] at memAfter ⊢
        obtain ⟨entry, memEntry, rfl⟩ := List.mem_map.mp memAfter
        rw [sameKey] at own
        obtain ⟨notOld, fresh⟩ := fits entry memEntry own
        constructor
        · split
          · exact Ne.symm different
          · exact notOld
        · intro other memOther same
          obtain ⟨before, memBefore, rfl⟩ := List.mem_map.mp memOther
          rw [sameKey] at same ⊢
          exact fresh before memBefore same
      · obtain ⟨position, mem, rfl⟩ := List.mem_map.mp key
        obtain ⟨value, found⟩ := exists_entry_of_position mem
        have entries := mapping.entries_replaceKey found
          (fits _ (List.mem_of_getElem? found) rfl).2
        intro entry memEntry own
        rw [entries, List.mem_append] at memEntry
        rcases memEntry with kept | last
        · exact absurd own (of_decide_eq_true (List.mem_filter.mp kept).2)
        · rw [List.mem_singleton.mp last] at own
          exact absurd own.symm different

/-- All references of the contents are redirected, whatever their order. -/
theorem redirected_foldl (different : old ≠ new) {relations : List ReferenceRelation}
    (fits : contents.Fits old new) (movable : contents.view.isTuple = false)
    (all : relations.Perm (contents.relationsTo old)) :
    (relations.foldl (write new) contents).view.Same (contents.view.redirected old new) ∧
      (relations.foldl (write new) contents).relationsTo old = [] := by
  induction relations generalizing contents with
  | nil =>
      have unrelated := all.symm.eq_nil
      rw [List.foldl_nil, redirected_of_unrelated unrelated]
      exact ⟨.refl _, unrelated⟩
  | cons relation rest ih =>
      have refers := all.mem_iff.mp List.mem_cons_self
      have others : rest.Perm ((contents.write new relation).relationsTo old) :=
        (List.cons_perm_iff_perm_erase.mp all).2.trans
          (relationsTo_write different fits movable refers).symm
      obtain ⟨same, gone⟩ := ih (fits_write different fits refers)
        ((isTuple_write relation).trans movable) others
      exact ⟨same.trans (redirected_write fits refers), gone⟩

/-- Only a tuple still refers to the old object. -/
theorem foldl_write (different : old ≠ new) {relations : List ReferenceRelation}
    (fits : contents.Fits old new) (all : relations.Perm (contents.relationsTo old)) :
    (relations.foldl (write new) contents).view.Same (contents.view.redirected old new) ∧
      (old ∈ (relations.foldl (write new) contents).view.targets ↔
        contents.view.isTuple = true ∧ old ∈ contents.view.targets) := by
  by_cases stuck : contents.view.isTuple = true
  · cases contents with
    | tuple items =>
        rw [foldl_tuple]
        exact ⟨.refl _, by simp [stuck]⟩
    | _ => contradiction
  · obtain ⟨same, gone⟩ := redirected_foldl different fits (Bool.not_eq_true _ ▸ stuck) all
    refine ⟨same, ?_⟩
    simp [stuck, relationsTo_eq_nil_iff.mp gone]

end ReferrerContents

/-- The relations of the contents of a source. -/
def ReferenceRelation.ofContents : ReferenceRelation → Bool
  | .attribute _ | .unknown _ => false
  | _ => true

namespace Referrer

open ReferrerContents

variable {Content : Type*} {contentOf : ObjectId → Content} {old new : ObjectId}
  {referrer : Referrer contentOf}

/-- All objects that the source refers to, as often as it does. -/
def targets (referrer : Referrer contentOf) : List ObjectId :=
  referrer.attributes.entries.map Prod.snd ++ referrer.contents.view.targets ++ referrer.unknown

/-- Every reference to the old object can be written. -/
def Redirectable (old : ObjectId) (referrer : Referrer contentOf) : Prop :=
  (∀ entry ∈ referrer.attributes.entries, entry.2 = old → referrer.access entry.1 = .writable) ∧
    (referrer.contents.view.isTuple = true → old ∉ referrer.contents.view.targets) ∧
    old ∉ referrer.unknown

theorem ofContents_of_mem {contents : ReferrerContents contentOf} {relation : ReferenceRelation}
    (refers : relation ∈ contents.relationsTo old) : relation.ofContents = true := by
  cases contents with
  | nothing => contradiction
  | list items | tuple items | frame locals =>
      obtain ⟨_, _, rfl⟩ := List.mem_map.mp refers
      rfl
  | dict mapping =>
      rcases List.mem_append.mp refers with value | key
      · obtain ⟨_, _, rfl⟩ := List.mem_map.mp value
        rfl
      · obtain ⟨_, _, rfl⟩ := List.mem_map.mp key
        rfl
  | cell content =>
      simp only [ReferrerContents.relationsTo] at refers
      split at refers
      · rw [List.mem_singleton.mp refers]
        rfl
      · contradiction

theorem filter_relationsTo :
    (referrer.relationsTo old).filter ReferenceRelation.ofContents =
      referrer.contents.relationsTo old := by
  have attributes : ((keysOf old referrer.attributes.entries).map
      ReferenceRelation.attribute).filter ReferenceRelation.ofContents = [] := by
    simp [List.filter_eq_nil_iff, ReferenceRelation.ofContents]
  have unknown : ((positions old referrer.unknown).map
      ReferenceRelation.unknown).filter ReferenceRelation.ofContents = [] := by
    simp [List.filter_eq_nil_iff, ReferenceRelation.ofContents]
  rw [relationsTo, List.filter_append, List.filter_append, attributes, unknown, List.nil_append,
    List.append_nil]
  exact List.filter_eq_self.mpr fun _ => ofContents_of_mem

theorem attribute_mem_relationsTo {name : String} :
    .attribute name ∈ referrer.relationsTo old ↔
      (name, old) ∈ referrer.attributes.entries := by
  have others : .attribute name ∉ referrer.contents.relationsTo old := by
    intro mem
    exact absurd (ofContents_of_mem mem) (by simp [ReferenceRelation.ofContents])
  simp [relationsTo, others, keysOf]

variable [DecidableEq Content]

theorem contents_write (relation : ReferenceRelation) (referrer : Referrer contentOf) :
    (referrer.write new relation).contents =
      if relation.ofContents then referrer.contents.write new relation
      else referrer.contents := by
  unfold write
  split
  · split <;> rfl
  · next noAttribute =>
    cases relation with
    | unknown number => cases contents : referrer.contents <;> rfl
    | index | item | key | content | localVar => rfl
    | _ name => exact absurd rfl (noAttribute name)

/-- The contents take the writes through their own relations only. -/
theorem contents_foldl (relations : List ReferenceRelation) (referrer : Referrer contentOf) :
    (relations.foldl (write new) referrer).contents =
      (relations.filter ReferenceRelation.ofContents).foldl (ReferrerContents.write new)
        referrer.contents := by
  induction relations generalizing referrer with
  | nil => rfl
  | cons relation rest ih =>
      rw [List.foldl_cons, ih, contents_write, List.filter_cons]
      by_cases own : relation.ofContents = true
      · rw [if_pos own, if_pos own, List.foldl_cons]
      · rw [if_neg own, if_neg own]

theorem access_write (relation : ReferenceRelation) (referrer : Referrer contentOf) :
    (referrer.write new relation).access = referrer.access := by
  unfold write
  split
  · split <;> rfl
  · rfl

theorem unknown_foldl (relations : List ReferenceRelation) (referrer : Referrer contentOf) :
    (relations.foldl (write new) referrer).unknown = referrer.unknown := by
  induction relations generalizing referrer with
  | nil => rfl
  | cons relation rest ih =>
      rw [List.foldl_cons, ih]
      unfold write
      split
      · split <;> rfl
      · rfl

theorem attributes_write {relation : ReferenceRelation} {referrer : Referrer contentOf}
    (known : ∀ name, .attribute name = relation → name ∈ referrer.attributes.keys) :
    (referrer.write new relation).attributes.entries =
      referrer.attributes.entries.map fun entry =>
        if referrer.access entry.1 = .writable ∧ .attribute entry.1 = relation then (entry.1, new)
        else entry := by
  unfold write
  split
  · next name =>
    have own (entry : String × ObjectId) :
        ReferenceRelation.attribute entry.1 = .attribute name ↔ entry.1 = name := by
      simp
    split
    · next writable =>
      rw [entries_set _ (known name rfl)]
      apply List.map_congr_left
      intro entry _
      by_cases same : entry.1 = name
      · rw [if_pos same, if_pos ⟨same ▸ writable, (own entry).mpr same⟩]
      · rw [if_neg same, if_neg fun both => same ((own entry).mp both.2)]
    · next stuck =>
      conv_lhs => rw [← List.map_id referrer.attributes.entries]
      apply List.map_congr_left
      intro entry _
      rw [if_neg, id_eq]
      rintro ⟨writable, same⟩
      exact stuck ((own entry).mp same ▸ writable)
  · next noAttribute =>
    conv_lhs => rw [← List.map_id referrer.attributes.entries]
    apply List.map_congr_left
    intro entry _
    rw [if_neg fun both => noAttribute entry.1 both.2.symm, id_eq]

/-- The attributes that can be written get the new object. -/
theorem attributes_foldl {relations : List ReferenceRelation} {referrer : Referrer contentOf}
    (known : ∀ name, .attribute name ∈ relations → name ∈ referrer.attributes.keys) :
    (relations.foldl (write new) referrer).attributes.entries =
      referrer.attributes.entries.map fun entry =>
        if referrer.access entry.1 = .writable ∧ .attribute entry.1 ∈ relations then (entry.1, new)
        else entry := by
  induction relations generalizing referrer with
  | nil => simp
  | cons relation rest ih =>
      have step : (referrer.write new relation).attributes.entries = _ :=
        attributes_write fun name same => known name (same ▸ List.mem_cons_self)
      have keys : (referrer.write new relation).attributes.keys = referrer.attributes.keys := by
        rw [PythonDict.keys, step, List.map_map]
        apply List.map_congr_left
        intro entry _
        rw [Function.comp_apply]
        split <;> rfl
      rw [List.foldl_cons, ih fun name mem => keys ▸ known name (List.mem_cons_of_mem _ mem), step,
        access_write, List.map_map]
      apply List.map_congr_left
      intro entry _
      rw [Function.comp_apply]
      by_cases writable : referrer.access entry.1 = .writable
      · by_cases here : .attribute entry.1 = relation
        · simp [writable, here]
        · simp [writable, here]
      · simp [writable]

end Referrer

namespace ReferenceGraph

variable {Content : Type*} {contentOf : ObjectId → Content}
  {graph : ReferenceGraph contentOf} {old new : ObjectId}
  {paths : List (ObjectId × ReferenceRelation)}

/-- The paths that `replace_single` comes to. -/
def reached (graph : ReferenceGraph contentOf) (paths : List (ObjectId × ReferenceRelation)) :
    List (ObjectId × ReferenceRelation) :=
  (sortedPaths paths).takeWhile fun path => !graph.refuses path

theorem refuses_iff {path : ObjectId × ReferenceRelation} : graph.refuses path = true ↔
    ∃ name, path.2 = .attribute name ∧ (graph path.1).access name = .refused := by
  obtain ⟨source, relation⟩ := path
  cases relation with
  | _ => simp [refuses, Referrer.refuses]

theorem mem_paths_iff (lists : graph.Lists old paths) {source : ObjectId}
    {relation : ReferenceRelation} :
    (source, relation) ∈ paths ↔ relation ∈ (graph source).relationsTo old := by
  rw [← (lists source).mem_iff]
  simp

theorem mem_of_mem_reached {path : ObjectId × ReferenceRelation}
    (mem : path ∈ graph.reached paths) : path ∈ paths :=
  (List.perm_insertionSort _ paths).mem_iff.mp ((List.takeWhile_sublist _).mem mem)

theorem reached_of_no_refusal {path : ObjectId × ReferenceRelation} (mem : path ∈ paths)
    (accepted : ∀ path ∈ paths, graph.refuses path = false) : path ∈ graph.reached paths := by
  have perm : (sortedPaths paths).Perm paths := List.perm_insertionSort _ paths
  have all : graph.reached paths = sortedPaths paths := by
    apply List.takeWhile_eq_self_iff.mpr
    intro other present
    simp [accepted other (perm.mem_iff.mp present)]
  rw [all]
  exact perm.mem_iff.mpr mem

theorem pairwise_sortedPaths (paths : List (ObjectId × ReferenceRelation)) :
    (sortedPaths paths).Pairwise fun one other => pathKey one ≤ pathKey other := by
  have total : Std.Total fun one other : ObjectId × ReferenceRelation =>
      pathKey one ≤ pathKey other := ⟨fun _ _ => Nat.le_total _ _⟩
  have transitive : IsTrans (ObjectId × ReferenceRelation) fun one other =>
      pathKey one ≤ pathKey other := ⟨fun _ _ _ => Nat.le_trans⟩
  exact List.pairwise_insertionSort _ paths

theorem pathKey_eq_one_iff (path : ObjectId × ReferenceRelation) :
    pathKey path = 1 ↔ ∃ name, path.2 = .attribute name := by
  obtain ⟨source, relation⟩ := path
  cases relation with
  | _ => simp [pathKey]

/-- Attributes come last, so only attributes are left out. -/
theorem attribute_of_mem_dropWhile {path : ObjectId × ReferenceRelation}
    (mem : path ∈ (sortedPaths paths).dropWhile fun path => !graph.refuses path) :
    ∃ name, path.2 = .attribute name := by
  have sorted := (pairwise_sortedPaths paths).sublist
    (List.dropWhile_sublist fun path => !graph.refuses path)
  have stops := List.head?_dropWhile_not (fun path => !graph.refuses path) (sortedPaths paths)
  cases left : (sortedPaths paths).dropWhile fun path => !graph.refuses path with
  | nil =>
      rw [left] at mem
      contradiction
  | cons first rest =>
      rw [left] at mem sorted stops
      obtain ⟨name, isAttribute, _⟩ := refuses_iff.mp (by simpa using stops)
      rcases List.mem_cons.mp mem with rfl | later
      · exact ⟨name, isAttribute⟩
      · have least := (List.pairwise_cons.mp sorted).1 path later
        have atFirst := (pathKey_eq_one_iff first).mpr ⟨name, isAttribute⟩
        have most : pathKey path ≤ 1 := by
          unfold pathKey
          split <;> omega
        apply (pathKey_eq_one_iff path).mp
        omega

/-- The relations of a source among the reached paths. -/
def relationsReached (graph : ReferenceGraph contentOf)
    (paths : List (ObjectId × ReferenceRelation)) (source : ObjectId) : List ReferenceRelation :=
  ((graph.reached paths).filter fun path => path.1 = source).map Prod.snd

theorem mem_relationsReached {source : ObjectId} {relation : ReferenceRelation} :
    relation ∈ graph.relationsReached paths source ↔ (source, relation) ∈ graph.reached paths := by
  simp [relationsReached]

/-- All relations of the contents are reached. -/
theorem filter_relationsReached (lists : graph.Lists old paths) (source : ObjectId) :
    ((graph.relationsReached paths source).filter ReferenceRelation.ofContents).Perm
      ((graph source).contents.relationsTo old) := by
  have all : (((sortedPaths paths).filter fun path => path.1 = source).map Prod.snd).Perm
      ((graph source).relationsTo old) :=
    (((List.perm_insertionSort _ paths).filter _).map _).trans (lists source)
  have left : ((((sortedPaths paths).dropWhile fun path => !graph.refuses path).filter
      fun path => path.1 = source).map Prod.snd).filter ReferenceRelation.ofContents = [] := by
    rw [List.filter_eq_nil_iff]
    intro relation mem
    obtain ⟨path, kept, rfl⟩ := List.mem_map.mp mem
    obtain ⟨name, isAttribute⟩ := attribute_of_mem_dropWhile (List.mem_filter.mp kept).1
    simp [isAttribute, ReferenceRelation.ofContents]
  have split := List.takeWhile_append_dropWhile (p := fun path => !graph.refuses path)
    (l := sortedPaths paths)
  rw [← split, List.filter_append, List.map_append] at all
  have kept := all.filter ReferenceRelation.ofContents
  rw [List.filter_append, left, List.append_nil, Referrer.filter_relationsTo] at kept
  exact kept

/-- All references of some sources. -/
def references (graph : ReferenceGraph contentOf) (sources : List ObjectId) : List ObjectId :=
  sources.flatMap fun source => (graph source).targets

theorem redirect_ne (different : old ≠ new) (id : ObjectId) : redirect old new id ≠ old := by
  rw [redirect]
  split
  · exact Ne.symm different
  · next other => exact other

variable [DecidableEq Content]

theorem refuses_follow (path other : ObjectId × ReferenceRelation) :
    (graph.follow new path).refuses other = graph.refuses other := by
  rw [refuses, refuses, follow]
  by_cases here : other.1 = path.1
  · rw [here, Function.update_self]
    cases other.2 with
    | _ => simp [Referrer.refuses, Referrer.access_write]
  · rw [Function.update_of_ne here]

theorem followAll_eq (paths : List (ObjectId × ReferenceRelation))
    (graph : ReferenceGraph contentOf) : followAll new paths graph =
      ((paths.takeWhile fun path => !graph.refuses path).foldl (follow new) graph,
        paths.any graph.refuses) := by
  induction paths generalizing graph with
  | nil => rfl
  | cons path rest ih =>
      rw [followAll]
      by_cases stops : graph.refuses path = true
      · rw [if_pos stops, List.takeWhile_cons_of_neg (by simp [stops]), List.any_cons, stops]
        rfl
      · have accepted : graph.refuses path = false := Bool.not_eq_true _ ▸ stops
        have same : (graph.follow new path).refuses = graph.refuses := funext (refuses_follow path)
        rw [if_neg stops, ih, List.takeWhile_cons_of_pos (by simp [accepted]), List.foldl_cons,
          List.any_cons, accepted, same]
        rfl

theorem foldl_follow (paths : List (ObjectId × ReferenceRelation))
    (graph : ReferenceGraph contentOf) (source : ObjectId) : paths.foldl (follow new) graph source =
      ((paths.filter fun path => path.1 = source).map Prod.snd).foldl (Referrer.write new)
        (graph source) := by
  induction paths generalizing graph with
  | nil => rfl
  | cons path rest ih =>
      rw [List.foldl_cons, ih, follow, List.filter_cons]
      by_cases here : path.1 = source
      · subst here
        rw [Function.update_self, if_pos (decide_eq_true rfl), List.map_cons, List.foldl_cons]
      · rw [Function.update_of_ne (Ne.symm here), if_neg (by simpa using here)]

theorem replaceSingle_eq (source : ObjectId) : (graph.replaceSingle paths new).1 source =
    (graph.relationsReached paths source).foldl (Referrer.write new) (graph source) := by
  rw [replaceSingle, followAll_eq]
  exact foldl_follow _ _ _

/-- What is left of a source. -/
theorem replaceSingle_source (different : old ≠ new) (lists : graph.Lists old paths)
    (source : ObjectId) (fits : (graph source).contents.Fits old new) :
    ((graph.replaceSingle paths new).1 source).attributes.entries =
        (graph source).attributes.entries.map (fun entry =>
          if (graph source).access entry.1 = .writable ∧
              (source, .attribute entry.1) ∈ graph.reached paths then (entry.1, new)
          else entry) ∧
      ((graph.replaceSingle paths new).1 source).contents.view.Same
        ((graph source).contents.view.redirected old new) ∧
      (old ∈ ((graph.replaceSingle paths new).1 source).contents.view.targets ↔
        (graph source).contents.view.isTuple = true ∧
          old ∈ (graph source).contents.view.targets) ∧
      ((graph.replaceSingle paths new).1 source).unknown = (graph source).unknown := by
  have known : ∀ name, .attribute name ∈ graph.relationsReached paths source →
      name ∈ (graph source).attributes.keys := by
    intro name mem
    have listed := mem_of_mem_reached (mem_relationsReached.mp mem)
    have present := Referrer.attribute_mem_relationsTo.mp ((mem_paths_iff lists).mp listed)
    exact List.mem_map_of_mem present
  rw [replaceSingle_eq, Referrer.contents_foldl, Referrer.unknown_foldl,
    Referrer.attributes_foldl known]
  obtain ⟨same, left⟩ :=
    ReferrerContents.foldl_write different fits (filter_relationsReached lists source)
  refine ⟨?_, same, left, rfl⟩
  simp only [mem_relationsReached]

/-- Only what cannot be written, and the attributes that are not reached, still refer to the old
object. -/
theorem mem_targets_replaceSingle (different : old ≠ new) (lists : graph.Lists old paths)
    (source : ObjectId) (fits : (graph source).contents.Fits old new) :
    old ∈ ((graph.replaceSingle paths new).1 source).targets ↔
      (∃ entry ∈ (graph source).attributes.entries, entry.2 = old ∧
        ¬ ((graph source).access entry.1 = .writable ∧
          (source, .attribute entry.1) ∈ graph.reached paths)) ∨
      ((graph source).contents.view.isTuple = true ∧
        old ∈ (graph source).contents.view.targets) ∨
      old ∈ (graph source).unknown := by
  obtain ⟨attributes, _, contents, unknown⟩ := replaceSingle_source different lists source fits
  rw [Referrer.targets, List.mem_append, List.mem_append, contents, unknown, attributes, or_assoc]
  apply or_congr_left
  rw [List.map_map, List.mem_map]
  constructor
  · rintro ⟨entry, mem, same⟩
    rw [Function.comp_apply] at same
    split at same
    · exact absurd same.symm different
    · next stuck => exact ⟨entry, mem, same, stuck⟩
  · rintro ⟨entry, mem, same, stuck⟩
    refine ⟨entry, mem, ?_⟩
    rw [Function.comp_apply, if_neg stuck]
    exact same

/-- A source that does not refer to the old object any more has all of its references
redirected. -/
theorem targets_replaceSingle (different : old ≠ new) (lists : graph.Lists old paths)
    (source : ObjectId) (fits : (graph source).contents.Fits old new)
    (gone : old ∉ ((graph.replaceSingle paths new).1 source).targets) :
    ((graph.replaceSingle paths new).1 source).targets.Perm
      ((graph source).targets.map (redirect old new)) := by
  obtain ⟨attributes, same, left, unknown⟩ := replaceSingle_source different lists source fits
  have stuck := mt (mem_targets_replaceSingle different lists source fits).mpr gone
  rw [not_or, not_or] at stuck
  obtain ⟨writable, noTuple, known⟩ := stuck
  rw [Referrer.targets, Referrer.targets, List.map_append, List.map_append, unknown,
    map_redirect known]
  apply List.Perm.append_right
  apply List.Perm.append
  · apply List.Perm.of_eq
    rw [attributes, List.map_map, List.map_map]
    apply List.map_congr_left
    intro entry mem
    rw [Function.comp_apply, Function.comp_apply]
    by_cases own : entry.2 = old
    · have written : (graph source).access entry.1 = .writable ∧
          (source, .attribute entry.1) ∈ graph.reached paths := by
        by_contra stuck
        exact writable ⟨entry, mem, own, stuck⟩
      rw [if_pos written, own, redirect_old]
    · have unwritten : ¬ ((graph source).access entry.1 = .writable ∧
          (source, .attribute entry.1) ∈ graph.reached paths) := by
        rintro ⟨_, reached⟩
        have refers := Referrer.attribute_mem_relationsTo.mp
          ((mem_paths_iff lists).mp (mem_of_mem_reached reached))
        exact own (congrArg Prod.snd (List.inj_on_of_nodup_map (graph source).attributes.nodup mem
          refers rfl))
      rw [if_neg unwritten, redirect, if_neg own]
  · refine same.targets.trans (List.Perm.of_eq ?_)
    by_cases tuple : (graph source).contents.view.isTuple = true
    · exact ContentsView.redirected_of_absent fun mem => noTuple ⟨tuple, mem⟩
    · exact ContentsView.targets_redirected old new (Bool.not_eq_true _ ▸ tuple)

/-- Nothing refers to the old object any more if and only if every reference could be written. -/
theorem gone_iff (different : old ≠ new) (lists : graph.Lists old paths) {sources : List ObjectId}
    (found : ∀ path ∈ paths, path.1 ∈ sources)
    (fits : ∀ source, (graph source).contents.Fits old new) :
    (∀ source ∈ sources, old ∉ ((graph.replaceSingle paths new).1 source).targets) ↔
      ∀ source ∈ sources, (graph source).Redirectable old := by
  constructor
  · intro gone source mem
    have stuck := mt (mem_targets_replaceSingle different lists source (fits source)).mpr
      (gone source mem)
    rw [not_or, not_or] at stuck
    obtain ⟨writable, noTuple, known⟩ := stuck
    refine ⟨fun entry present own => ?_, fun tuple refers => noTuple ⟨tuple, refers⟩, known⟩
    by_contra readOnly
    exact writable ⟨entry, present, own, fun both => readOnly both.1⟩
  · intro redirectable source mem left
    have accepted : ∀ path ∈ paths, graph.refuses path = false := by
      rintro ⟨other, relation⟩ listed
      have refers := (mem_paths_iff lists).mp listed
      by_contra refusing
      obtain ⟨name, rfl, refused⟩ := refuses_iff.mp (Bool.not_eq_false _ ▸ refusing)
      have access := (redirectable other (found _ listed)).1 _
        (Referrer.attribute_mem_relationsTo.mp refers) rfl
      exact absurd (refused.symm.trans access) (by decide)
    obtain ⟨writable, noTuple, known⟩ := redirectable source mem
    rcases (mem_targets_replaceSingle different lists source (fits source)).mp left with
      ⟨entry, present, own, stuck⟩ | ⟨tuple, refers⟩ | refers
    · have listed : (source, .attribute entry.1) ∈ paths := by
        rw [mem_paths_iff lists, Referrer.attribute_mem_relationsTo, ← own]
        exact present
      exact stuck ⟨writable entry present own, reached_of_no_refusal listed accepted⟩
    · exact noTuple tuple refers
    · exact known refers

/-- The loop ends early if and only if an attribute that refers to the old object refuses the new
one. -/
theorem refused_iff (lists : graph.Lists old paths) :
    (graph.replaceSingle paths new).2 = true ↔ ∃ source name,
      (name, old) ∈ (graph source).attributes.entries ∧
        (graph source).access name = .refused := by
  have perm : (sortedPaths paths).Perm paths := List.perm_insertionSort _ paths
  rw [replaceSingle, followAll_eq, List.any_eq_true]
  constructor
  · rintro ⟨⟨source, relation⟩, mem, refusing⟩
    have refers := (mem_paths_iff lists).mp (perm.mem_iff.mp mem)
    obtain ⟨name, rfl, refused⟩ := refuses_iff.mp refusing
    exact ⟨source, name, Referrer.attribute_mem_relationsTo.mp refers, refused⟩
  · rintro ⟨source, name, refers, refusing⟩
    refine ⟨(source, .attribute name), perm.mem_iff.mpr ?_, refuses_iff.mpr ⟨name, rfl, refusing⟩⟩
    exact (mem_paths_iff lists).mpr (Referrer.attribute_mem_relationsTo.mpr refers)

/-- `replace_single` redirects all references except those in tuples, through unknown relations, in
attributes that cannot be written and in attributes that are listed after one that refuses the new
object; it does what the deletion takes it to do if and only if none of these refers to the old
object. -/
theorem replaceSingle_refines {Value Resource Constraint : Type*}
    (heap : Heap Value Resource Constraint)
    (object : SpliceObject Value Resource Constraint) (graph : ReferenceGraph contentOf)
    (sources : List ObjectId) {old : ObjectId} (live : old ∈ heap.references)
    (represents : heap.references.Perm (graph.references sources))
    (lists : graph.Lists old paths) (found : ∀ path ∈ paths, path.1 ∈ sources)
    (fits : ∀ source, (graph source).contents.Fits old heap.next) :
    (∀ source,
      ((graph.replaceSingle paths heap.next).1 source).attributes.entries =
          (graph source).attributes.entries.map (fun entry =>
            if (graph source).access entry.1 = .writable ∧
                (source, .attribute entry.1) ∈ graph.reached paths then (entry.1, heap.next)
            else entry) ∧
        ((graph.replaceSingle paths heap.next).1 source).contents.view.Same
          ((graph source).contents.view.redirected old heap.next) ∧
        ((graph.replaceSingle paths heap.next).1 source).unknown = (graph source).unknown) ∧
    ((graph.replaceSingle paths heap.next).2 = true ↔ ∃ source name,
      (name, old) ∈ (graph source).attributes.entries ∧
        (graph source).access name = .refused) ∧
    ((heap.replaceSingle old object).references.Perm
        ((graph.replaceSingle paths heap.next).1.references sources) ↔
      ∀ source ∈ sources, (graph source).Redirectable old) := by
  have different : old ≠ heap.next := Nat.ne_of_lt (heap.created old live)
  refine ⟨fun source => ?_, refused_iff lists, ?_⟩
  · obtain ⟨attributes, contents, _, unknown⟩ :=
      replaceSingle_source different lists source (fits source)
    exact ⟨attributes, contents, unknown⟩
  rw [← gone_iff different lists found fits]
  have redirected : (heap.replaceSingle old object).references.Perm
      ((graph.references sources).map (redirect old heap.next)) := represents.map _
  constructor
  · intro perm source mem refers
    have left : old ∈ (graph.replaceSingle paths heap.next).1.references sources :=
      List.mem_flatMap.mpr ⟨source, mem, refers⟩
    obtain ⟨id, _, same⟩ := List.mem_map.mp (redirected.mem_iff.mp (perm.mem_iff.mpr left))
    exact redirect_ne different id same
  · intro gone
    refine redirected.trans (List.Perm.symm ?_)
    rw [references, references, List.map_flatMap]
    apply List.Perm.flatMap_left
    intro source mem
    exact targets_replaceSingle different lists source (fits source) (gone source mem)

section Example

/-- Object 1 is an attribute and twice an item of a list, and the first key and the second value of
a dictionary; a slice has a given start. -/
def exampleGraph (start : ObjectId) : ReferenceGraph (id : ObjectId → ObjectId) := fun source =>
  if source = 10 then ⟨PythonDict.empty.set "key" 1, fun _ => .writable, .list [1, 0, 1], []⟩
  else if source = 11 then
    ⟨PythonDict.empty, fun _ => .skipped, .dict ⟨[(1, 2), (0, 1)], by decide⟩, []⟩
  else if source = 12 then
    ⟨PythonDict.empty.set "start" start, fun _ => .refused, .nothing, []⟩
  else ⟨PythonDict.empty, fun _ => .skipped, .nothing, []⟩

def examplePaths : List (ObjectId × ReferenceRelation) :=
  [(10, .attribute "key"), (11, .key 0), (10, .index 2), (11, .item 0), (10, .index 0)]

def exampleHeap (start : ObjectId)
    (created : ∀ id ∈ (exampleGraph start).references [10, 11, 12], id < 3) :
    Heap Nat Empty Empty where
  object _ := ⟨.value 7 [], true, false, emptyTaint⟩
  next := 3
  references := (exampleGraph start).references [10, 11, 12]
  created := created

theorem lists_example : (exampleGraph 0).Lists 1 examplePaths := by
  intro source
  by_cases list : source = 10
  · subst list
    decide
  by_cases dict : source = 11
  · subst dict
    decide
  by_cases slice : source = 12
  · subst slice
    decide
  · simp [exampleGraph, examplePaths, list, dict, slice, Ne.symm list, Ne.symm dict,
      Referrer.relationsTo, ReferrerContents.relationsTo, keysOf, PythonDict.empty, positions]

theorem lists_example_refused :
    (exampleGraph 1).Lists 1 ((12, .attribute "start") :: examplePaths) := by
  intro source
  by_cases list : source = 10
  · subst list
    decide
  by_cases dict : source = 11
  · subst dict
    decide
  by_cases slice : source = 12
  · subst slice
    decide
  · simp [exampleGraph, examplePaths, list, dict, slice, Ne.symm list, Ne.symm dict,
      Ne.symm slice, Referrer.relationsTo, ReferrerContents.relationsTo, keysOf,
      PythonDict.empty, positions]

theorem fits_example (start source : ObjectId) :
    (exampleGraph start source).contents.Fits 1 3 := by
  unfold exampleGraph
  split
  · trivial
  split
  · intro entry mem own
    revert own
    revert entry
    decide
  split <;> trivial

/-- The object 3 takes the place of object 1 everywhere, unless object 1 is also the start of the
slice, found before the attribute of the list. -/
theorem replaceSingle_refines_example :
    ((exampleHeap 0 (by decide)).replaceSingle 1
      ((exampleHeap 0 (by decide)).object 1)).references.Perm
        (((exampleGraph 0).replaceSingle examplePaths 3).1.references [10, 11, 12]) ∧
      ((exampleGraph 1).replaceSingle ((12, .attribute "start") :: examplePaths) 3).2 = true ∧
      (((exampleGraph 1).replaceSingle ((12, .attribute "start") :: examplePaths) 3).1
        10).contents.view = .list [3, 0, 3] ∧
      (((exampleGraph 1).replaceSingle ((12, .attribute "start") :: examplePaths) 3).1
        10).attributes.entries = [("key", 1)] := by
  obtain ⟨_, _, redirects⟩ := replaceSingle_refines (exampleHeap 0 (by decide))
    ((exampleHeap 0 (by decide)).object 1) (exampleGraph 0) [10, 11, 12] (by decide)
    (List.Perm.refl _) lists_example (by decide) (fits_example 0)
  obtain ⟨sources, refused, _⟩ := replaceSingle_refines (exampleHeap 1 (by decide))
    ((exampleHeap 1 (by decide)).object 1) (exampleGraph 1) [10, 11, 12] (by decide)
    (List.Perm.refl _) lists_example_refused (by decide) (fits_example 1)
  refine ⟨redirects.mpr ?_, refused.mpr ⟨12, "start", by decide, rfl⟩, by decide,
    (sources 10).1.trans (by decide)⟩
  simp [Referrer.Redirectable, exampleGraph, ReferrerContents.view, ContentsView.isTuple,
    PythonDict.empty, PythonDict.set, PythonDict.keys]

end Example

end ReferenceGraph

end SaltyRtcServer
