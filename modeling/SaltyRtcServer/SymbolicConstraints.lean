import SaltyRtcServer.ConstraintMerge

/-!
# Symbolic constraints

`SymbolicVisitor` makes the constraints of an object concrete: conditions are evaluated
for the object, and of the branches of a conditional constraint one is taken.  For the
dependency graph all branches are merged instead, and the arguments of all conditions
are noted under the key `conds`.
-/

namespace SaltyRtcServer

/-- The keywords of single constraints. -/
inductive ConstraintKind
  | gt | ge | lt | le | eq | ne | xeq
  deriving DecidableEq

/-- The keys of a concrete map. -/
inductive ConstraintKey
  | kind (kind : ConstraintKind)
  | conds
  deriving DecidableEq

/-- A `condition` of a branch: the truth value of its result, which is not `None`, and the
arguments that are noted in the mode of the dependency graph. -/
structure BranchCondition (Object Value : Type) where
  holds : Object → Bool
  arguments : Object → List Value

/-- A `constraint`: the value that it is visited to, if it is valid, and the arguments of its
conditions. -/
structure SymbolicConstraint (Object Value : Type) where
  kind : ConstraintKind
  value : Object → Option Value
  arguments : Object → List Value

abbrev Cnf (Object Value : Type) := List (SymbolicConstraint Object Value)

abbrev Dnf (Object Value : Type) := List (Cnf Object Value)

/-- A `conditioned_dnf`. -/
structure ConditionedDnf (Object Value : Type) where
  condition : BranchCondition Object Value
  dnf : Dnf Object Value
  elifs : List (BranchCondition Object Value × Dnf Object Value)
  otherwise : Option (Dnf Object Value)

/-- A part of a symbolic constraint. -/
inductive SymbolicPart (Object Value : Type)
  | plain (dnf : Dnf Object Value)
  | conditioned (conditioned : ConditionedDnf Object Value)

/-- A node of the parse tree of a `conditioned_dnf`. -/
inductive ParseNode (Object Value : Type)
  | keyword (text : String)
  | condition (condition : BranchCondition Object Value)
  | dnf (dnf : Dnf Object Value)

/-- Concrete constraints in disjunctive normal form. -/
abbrev ConcreteForm (Value : Type) := List (Conjunction ConstraintKey Value)

/-- What the visitor makes of a node, unless it is `None`. -/
inductive Visited (Value : Type)
  | truth (value : Bool)
  | form (form : ConcreteForm Value)

variable {Object Value : Type}

/-- `constraints[key].append(value)`, or a new list. -/
def Conjunction.append (constraints : Conjunction ConstraintKey Value) (kind : ConstraintKind)
    (value : Value) : Conjunction ConstraintKey Value :=
  constraints.set (.kind kind) ((constraints.get? (.kind kind)).getD [] ++ [value])

namespace SymbolicVisitor

/-- `visit_cnf`, whose children are the constraints that are valid. -/
def visitCnf (obj : Object) (cnf : Cnf Object Value) : Conjunction ConstraintKey Value :=
  cnf.foldl (fun constraints constraint =>
    match constraint.value obj with
    | none => constraints
    | some value => Conjunction.append constraints constraint.kind value) .empty

/-- `visit_dnf`. -/
def visitDnf (obj : Object) (dnf : Dnf Object Value) : ConcreteForm Value := dnf.map (visitCnf obj)

/-- Keywords are visited to `None`. -/
def visit (obj : Object) : ParseNode Object Value → Option (Visited Value)
  | .keyword _ => none
  | .condition condition => some (.truth (condition.holds obj))
  | .dnf dnf => some (.form (visitDnf obj dnf))

/-- Whether a result counts as true. -/
def truthy : Visited Value → Bool
  | .truth value => value
  | .form form => !form.isEmpty

/-- `merge_constraints` of contents. -/
def mergeForms (one other : ConcreteForm Value) : ConcreteForm Value :=
  (NormalForm.merge (some one) (some other)).getD []

/-- `merge_constraints` of results, which raises a `TypeError` if it has to iterate over a
truth value. -/
def mergeVisited (one other : Visited Value) : Option (Visited Value) :=
  if truthy one = false then some other
  else if truthy other = false then some one
  else
    match one, other with
    | .form one, .form other => some (.form (mergeForms one other))
    | _, _ => none

/-- The loop over the branches for the dependency graph. -/
def mergeBranches (merged : Visited Value) : List (Visited Value) → Option (Visited Value)
  | _ :: branch :: rest => do
      let merged ← mergeVisited branch merged
      mergeBranches merged rest
  | _ => some merged

/-- The loop over the branches that returns the first one whose condition is true. -/
def selectBranch : List (Visited Value) → Option (Visited Value)
  | condition :: branch :: rest => if truthy condition then some branch else selectBranch rest
  | _ => none

/-- `"else" in node`. -/
def hasElse (nodes : List (ParseNode Object Value)) : Bool :=
  nodes.any fun
    | .keyword text => text = "else"
    | _ => false

/-- `visit_conditioned_dnf`. -/
def visitConditionedDnf (dg : Bool) (nodes : List (ParseNode Object Value))
    (children : List (Visited Value)) : Option (Visited Value) :=
  if dg then mergeBranches (.form []) children
  else
    match selectBranch children with
    | some branch => some branch
    | none => if hasElse nodes then children.getLast? else some (.form [])

/-- The loop of `visit_symbolic`. -/
def mergeChildren (merged : ConcreteForm Value) : List (Visited Value) → ConcreteForm Value
  | [] => merged
  | .form form :: rest => mergeChildren (mergeForms form merged) rest
  | .truth _ :: rest => mergeChildren merged rest

/-- `visit_symbolic`, with the arguments that conditions have noted. -/
def visitSymbolic (dg : Bool) (condConstraints : List Value) (children : List (Visited Value)) :
    ConcreteForm Value :=
  let merged := mergeChildren [] children
  if dg then mergeForms [PythonDict.empty.set .conds condConstraints] merged else merged

end SymbolicVisitor

open SymbolicVisitor

namespace ConditionedDnf

variable (conditioned : ConditionedDnf Object Value)

/-- The DNFs with a condition. -/
def branches : List (BranchCondition Object Value × Dnf Object Value) :=
  (conditioned.condition, conditioned.dnf) :: conditioned.elifs

def branchNodes (keyword : String) (branch : BranchCondition Object Value × Dnf Object Value) :
    List (ParseNode Object Value) :=
  [.keyword keyword, .condition branch.1, .keyword "then", .dnf branch.2]

def elseNodes : Option (Dnf Object Value) → List (ParseNode Object Value)
  | none => []
  | some dnf => [.keyword "else", .dnf dnf]

/-- The nodes below the node of a `conditioned_dnf`. -/
def nodes : List (ParseNode Object Value) :=
  branchNodes "if" (conditioned.condition, conditioned.dnf) ++
    conditioned.elifs.flatMap (branchNodes "elif") ++ elseNodes conditioned.otherwise

end ConditionedDnf

namespace SymbolicPart

/-- The visit of one part, whose children are the results that are not `None`. -/
def visit (dg : Bool) (obj : Object) : SymbolicPart Object Value → Option (Visited Value)
  | .plain dnf => some (.form (visitDnf obj dnf))
  | .conditioned branching =>
      visitConditionedDnf dg branching.nodes
        (branching.nodes.filterMap (SymbolicVisitor.visit obj))

/-- The arguments of the conditions in a DNF. -/
def dnfArguments (obj : Object) (dnf : Dnf Object Value) : List Value :=
  dnf.flatMap fun cnf => cnf.flatMap fun constraint => constraint.arguments obj

/-- `self.cond_constraints` of one part, in the order of the visits. -/
def arguments (obj : Object) : SymbolicPart Object Value → List Value
  | .plain dnf => dnfArguments obj dnf
  | .conditioned branching => branching.nodes.flatMap fun
      | .keyword _ => []
      | .condition condition => condition.arguments obj
      | .dnf dnf => dnfArguments obj dnf

end SymbolicPart

/-- The callback of `SpliceStructMixin.concretize_cb`. -/
def concretize (dg : Bool) (obj : Object) (symbolic : List (SymbolicPart Object Value)) :
    Option (ConcreteForm Value) :=
  (symbolic.mapM (SymbolicPart.visit dg obj)).map
    (visitSymbolic dg (symbolic.flatMap (SymbolicPart.arguments obj)))

section Meaning

variable {Subject : Type} (interpretation : ConstraintKind → Value → Subject → Prop)

/-- The meaning of an entry, of which the one under `conds` is ignored. -/
def ignoringConds : ConstraintKey → Value → Subject → Prop
  | .kind kind => interpretation kind
  | .conds => fun _ _ => True

/-- The subject meets the concrete constraints. -/
def Satisfies (form : ConcreteForm Value) (subject : Subject) : Prop :=
  subject ∈ NormalForm.satisfying (ignoringConds interpretation) (some form)

/-- What satisfies the constraints of the dependency graph satisfies those of the branches that
the conditions select. -/
def BranchesApply (obj : Object) (symbolic : List (SymbolicPart Object Value)) : Prop :=
  ∃ merged selected, concretize true obj symbolic = some merged ∧
    concretize false obj symbolic = some selected ∧
      ∀ subject, Satisfies interpretation merged subject →
        Satisfies interpretation selected subject

/-- No condition of a branch is true. -/
def ConditionedDnf.ElseTaken (conditioned : ConditionedDnf Object Value) (obj : Object) : Prop :=
  ∀ branch ∈ conditioned.branches, branch.1.holds obj = false

/-- The DNFs of a part that are not behind an `else`. -/
def SymbolicPart.dnfs : SymbolicPart Object Value → List (Dnf Object Value)
  | .plain dnf => [dnf]
  | .conditioned branching => branching.branches.map Prod.snd

variable {interpretation} {subject : Subject}

@[simp]
theorem satisfies_nil : Satisfies interpretation ([] : ConcreteForm Value) subject := .inl rfl

theorem satisfies_mergeForms {one other : ConcreteForm Value} :
    Satisfies interpretation (mergeForms one other) subject ↔
      Satisfies interpretation one subject ∧ Satisfies interpretation other subject := by
  have merged : some (mergeForms one other) = NormalForm.merge (some one) (some other) := by
    rw [mergeForms, NormalForm.merge]
    split
    · rfl
    · split <;> rfl
  rw [Satisfies, merged, NormalForm.satisfying_merge]
  exact Set.mem_inter_iff ..

/-- The entry under `conds` does not restrict anything. -/
theorem satisfies_conds (arguments : List Value) :
    Satisfies interpretation [PythonDict.empty.set .conds arguments] subject := by
  refine .inr ⟨_, List.mem_cons_self, ?_⟩
  rintro ⟨key, values⟩ mem value _
  rw [PythonDict.entries_set_of_notMem (by simp)] at mem
  have isConds := congrArg Prod.fst (List.mem_singleton.mp mem)
  obtain rfl : key = .conds := by simpa [PythonDict.empty] using isConds
  trivial

theorem Conjunction.meets_iff_get? {Kind : Type} [DecidableEq Kind]
    {single : Kind → Value → Subject → Prop} {constraint : Conjunction Kind Value} :
    constraint.Meets single subject ↔ ∀ key values, constraint.get? key = some values →
      ∀ value ∈ values, single key value subject := by
  constructor
  · exact fun meets key values found => meets _ (PythonDict.mem_entries_of_get? found)
  · exact fun each entry mem => each _ _ (PythonDict.get?_of_mem_entries mem)

/-- One more constraint of a kind. -/
theorem Conjunction.meets_append {constraints : Conjunction ConstraintKey Value}
    {kind : ConstraintKind} {value : Value} :
    (constraints.append kind value).Meets (ignoringConds interpretation) subject ↔
      constraints.Meets (ignoringConds interpretation) subject ∧
        interpretation kind value subject := by
  simp only [Conjunction.meets_iff_get?, Conjunction.append, PythonDict.get?_set]
  constructor
  · intro meets
    have appended := meets (.kind kind) _ (if_pos rfl)
    rw [List.forall_mem_append, List.forall_mem_singleton] at appended
    refine ⟨fun key values found => ?_, appended.2⟩
    by_cases same : key = .kind kind
    · subst same
      rw [found, Option.getD_some] at appended
      exact appended.1
    · exact meets key values (by rw [if_neg same, found])
  · rintro ⟨meets, holds⟩ key values found
    split at found
    · next same =>
      subst same
      cases found
      rw [List.forall_mem_append, List.forall_mem_singleton]
      refine ⟨fun other mem => ?_, holds⟩
      cases before : constraints.get? (.kind kind) with
      | none => simp [before] at mem
      | some values =>
          rw [before, Option.getD_some] at mem
          exact meets _ values before other mem
    · exact meets key values found

/-- All valid constraints of a CNF have to be met. -/
theorem meets_visitCnf (obj : Object) (cnf : Cnf Object Value) :
    (visitCnf obj cnf).Meets (ignoringConds interpretation) subject ↔
      ∀ constraint ∈ cnf, ∀ value ∈ constraint.value obj,
        interpretation constraint.kind value subject := by
  have loop : ∀ constraints : Conjunction ConstraintKey Value,
      (cnf.foldl (fun constraints constraint =>
        match constraint.value obj with
        | none => constraints
        | some value => Conjunction.append constraints constraint.kind value) constraints).Meets
          (ignoringConds interpretation) subject ↔
        constraints.Meets (ignoringConds interpretation) subject ∧
          ∀ constraint ∈ cnf, ∀ value ∈ constraint.value obj,
            interpretation constraint.kind value subject := by
    induction cnf with
    | nil => simp
    | cons constraint rest ih =>
        intro constraints
        rw [List.foldl_cons, ih, List.forall_mem_cons]
        cases constraint.value obj with
        | none => simp
        | some value =>
            dsimp only
            rw [Conjunction.meets_append, and_assoc]
            simp
  have started : Conjunction.Meets (ignoringConds interpretation)
      (.empty : Conjunction ConstraintKey Value) subject :=
    fun entry mem => absurd mem List.not_mem_nil
  rw [visitCnf, loop]
  exact and_iff_right started

/-- One of the CNFs has to be met, if there is one. -/
theorem satisfies_visitDnf (obj : Object) (dnf : Dnf Object Value) :
    Satisfies interpretation (visitDnf obj dnf) subject ↔ dnf = [] ∨ ∃ cnf ∈ dnf,
      ∀ constraint ∈ cnf, ∀ value ∈ constraint.value obj,
        interpretation constraint.kind value subject := by
  rw [Satisfies, NormalForm.mem_satisfying_iff]
  simp [visitDnf, meets_visitCnf]

/-- A result that is no form restricts nothing. -/
def SatisfiesVisited (interpretation : ConstraintKind → Value → Subject → Prop)
    (subject : Subject) :
    Visited Value → Prop
  | .truth _ => True
  | .form form => Satisfies interpretation form subject

theorem satisfies_mergeChildren {merged : ConcreteForm Value} {children : List (Visited Value)} :
    Satisfies interpretation (mergeChildren merged children) subject ↔
      Satisfies interpretation merged subject ∧
        ∀ child ∈ children, SatisfiesVisited interpretation subject child := by
  induction children generalizing merged with
  | nil => simp [mergeChildren]
  | cons child rest ih =>
      cases child with
      | truth value =>
          rw [mergeChildren, ih, List.forall_mem_cons]
          simp [SatisfiesVisited]
      | form form =>
          rw [mergeChildren, ih, satisfies_mergeForms, List.forall_mem_cons, and_assoc,
            and_left_comm]
          rfl

theorem satisfies_visitSymbolic (dg : Bool) (arguments : List Value)
    {children : List (Visited Value)} :
    Satisfies interpretation (visitSymbolic dg arguments children) subject ↔
      ∀ child ∈ children, SatisfiesVisited interpretation subject child := by
  cases dg with
  | false =>
      rw [visitSymbolic, if_neg Bool.false_ne_true, satisfies_mergeChildren]
      simp
  | true =>
      rw [visitSymbolic, if_pos rfl, satisfies_mergeForms, satisfies_mergeChildren]
      simp [satisfies_conds]

end Meaning

section Visits

variable {obj : Object} {branching : ConditionedDnf Object Value}

theorem mergeVisited_form (one other : ConcreteForm Value) :
    mergeVisited (.form one) (.form other) = some (.form (mergeForms one other)) := by
  cases one with
  | nil => rfl
  | cons first rest =>
      cases other with
      | nil => rfl
      | cons second others => rfl

/-- The two results of a branch. -/
def visitedBranch (obj : Object) (branch : BranchCondition Object Value × Dnf Object Value) :
    List (Visited Value) :=
  [.truth (branch.1.holds obj), .form (visitDnf obj branch.2)]

/-- The results alternate, and a DNF behind an `else` comes last. -/
theorem children_eq (obj : Object) (branching : ConditionedDnf Object Value) :
    branching.nodes.filterMap (SymbolicVisitor.visit obj) =
      branching.branches.flatMap (visitedBranch obj) ++
        (branching.otherwise.map fun dnf => Visited.form (visitDnf obj dnf)).toList := by
  have branch : ∀ (keyword : String) (branch : BranchCondition Object Value × Dnf Object Value),
      (ConditionedDnf.branchNodes keyword branch).filterMap (SymbolicVisitor.visit obj) =
        visitedBranch obj branch := fun _ _ => rfl
  have elifs : ∀ elifs : List (BranchCondition Object Value × Dnf Object Value),
      (elifs.flatMap (ConditionedDnf.branchNodes "elif")).filterMap (SymbolicVisitor.visit obj) =
        elifs.flatMap (visitedBranch obj) := by
    intro elifs
    induction elifs with
    | nil => rfl
    | cons first rest ih =>
        rw [List.flatMap_cons, List.filterMap_append, branch, ih, List.flatMap_cons]
  rw [ConditionedDnf.nodes, List.filterMap_append, List.filterMap_append, branch, elifs,
    ConditionedDnf.branches, List.flatMap_cons]
  congr 1
  cases branching.otherwise <;> rfl

/-- The first branch with a true condition is selected. -/
theorem selectBranch_eq (obj : Object)
    (branches : List (BranchCondition Object Value × Dnf Object Value))
    (last : Option (Visited Value)) :
    selectBranch (branches.flatMap (visitedBranch obj) ++ last.toList) =
      (branches.find? fun branch => branch.1.holds obj).map
        fun branch => .form (visitDnf obj branch.2) := by
  induction branches with
  | nil => cases last <;> rfl
  | cons branch rest ih =>
      rw [List.flatMap_cons, visitedBranch, List.append_assoc, List.cons_append,
        List.cons_append, List.nil_append, selectBranch, ih, List.find?_cons, truthy]
      cases branch.1.holds obj <;> rfl

/-- All branches but the last one, behind an `else`, are merged. -/
theorem mergeBranches_eq (obj : Object)
    (branches : List (BranchCondition Object Value × Dnf Object Value))
    (last : Option (Visited Value)) (merged : ConcreteForm Value) :
    mergeBranches (.form merged) (branches.flatMap (visitedBranch obj) ++ last.toList) =
      some (.form (branches.foldl
        (fun merged branch => mergeForms (visitDnf obj branch.2) merged) merged)) := by
  induction branches generalizing merged with
  | nil => cases last <;> rfl
  | cons branch rest ih =>
      rw [List.flatMap_cons, List.append_assoc]
      change (mergeVisited (.form (visitDnf obj branch.2)) (.form merged) >>= _) = _
      rw [mergeVisited_form]
      exact ih _

/-- The DNF that the conditions select. -/
def ConditionedDnf.selected (obj : Object) (branching : ConditionedDnf Object Value) :
    Option (Dnf Object Value) :=
  match branching.branches.find? fun branch => branch.1.holds obj with
  | some branch => some branch.2
  | none => branching.otherwise

/-- The constraints of one part. -/
def SymbolicPart.form (dg : Bool) (obj : Object) :
    SymbolicPart Object Value → ConcreteForm Value
  | .plain dnf => visitDnf obj dnf
  | .conditioned branching =>
      if dg then branching.branches.foldl
        (fun merged branch => mergeForms (visitDnf obj branch.2) merged) []
      else ((branching.selected obj).map (visitDnf obj)).getD []

theorem hasElse_nodes (branching : ConditionedDnf Object Value) :
    hasElse branching.nodes = branching.otherwise.isSome := by
  have elifs : hasElse (branching.elifs.flatMap (ConditionedDnf.branchNodes "elif")) = false := by
    rw [hasElse, List.any_flatMap, List.any_eq_false]
    intro branch _
    simp [ConditionedDnf.branchNodes]
  have first : ∀ branch : BranchCondition Object Value × Dnf Object Value,
      hasElse (ConditionedDnf.branchNodes "if" branch) = false := by
    intro branch
    simp [hasElse, ConditionedDnf.branchNodes]
  rw [hasElse] at elifs
  rw [ConditionedDnf.nodes, hasElse, List.any_append, List.any_append, elifs, ← hasElse, first]
  cases branching.otherwise <;> simp [ConditionedDnf.elseNodes]

/-- No part raises an exception. -/
theorem visit_eq (dg : Bool) (obj : Object) (part : SymbolicPart Object Value) :
    part.visit dg obj = some (.form (part.form dg obj)) := by
  cases part with
  | plain dnf => rfl
  | conditioned branching =>
      rw [SymbolicPart.visit, children_eq, visitConditionedDnf, SymbolicPart.form]
      cases dg with
      | true =>
          rw [if_pos rfl, if_pos rfl]
          exact mergeBranches_eq ..
      | false =>
          rw [if_neg Bool.false_ne_true, if_neg Bool.false_ne_true, selectBranch_eq,
            hasElse_nodes, ConditionedDnf.selected]
          cases branching.branches.find? fun branch => branch.1.holds obj with
          | some branch => rfl
          | none => cases branching.otherwise <;> simp

theorem concretize_eq (dg : Bool) (obj : Object) (symbolic : List (SymbolicPart Object Value)) :
    concretize dg obj symbolic = some (visitSymbolic dg
      (symbolic.flatMap (SymbolicPart.arguments obj))
      (symbolic.map fun part => Visited.form (part.form dg obj))) := by
  have visits : SymbolicPart.visit dg obj =
      fun part : SymbolicPart Object Value => pure (Visited.form (part.form dg obj)) :=
    funext (visit_eq dg obj)
  rw [concretize, visits, List.mapM_pure]
  rfl

end Visits

section Agreement

variable {Subject : Type} {interpretation : ConstraintKind → Value → Subject → Prop}
variable {obj : Object} {subject : Subject}

theorem satisfies_concretized (dg : Bool) (arguments : List Value)
    (symbolic : List (SymbolicPart Object Value)) :
    Satisfies interpretation (visitSymbolic dg arguments
        (symbolic.map fun part => Visited.form (part.form dg obj))) subject ↔
      ∀ part ∈ symbolic, Satisfies interpretation (part.form dg obj) subject := by
  rw [satisfies_visitSymbolic, List.forall_mem_map]
  rfl

theorem satisfies_foldl (branches : List (BranchCondition Object Value × Dnf Object Value))
    (merged : ConcreteForm Value) :
    Satisfies interpretation (branches.foldl
        (fun merged branch => mergeForms (visitDnf obj branch.2) merged) merged) subject ↔
      Satisfies interpretation merged subject ∧
        ∀ branch ∈ branches, Satisfies interpretation (visitDnf obj branch.2) subject := by
  induction branches generalizing merged with
  | nil => simp
  | cons branch rest ih =>
      rw [List.foldl_cons, ih, satisfies_mergeForms, List.forall_mem_cons, and_assoc,
        and_left_comm]

/-- For the dependency graph, a part means all its DNFs that are not behind an `else`. -/
theorem satisfies_form_true (part : SymbolicPart Object Value) :
    Satisfies interpretation (part.form true obj) subject ↔
      ∀ dnf ∈ part.dnfs, Satisfies interpretation (visitDnf obj dnf) subject := by
  cases part with
  | plain dnf => rw [SymbolicPart.form, SymbolicPart.dnfs, List.forall_mem_singleton]
  | conditioned branching =>
      rw [SymbolicPart.form, if_pos rfl, satisfies_foldl, SymbolicPart.dnfs, List.forall_mem_map]
      simp

/-- A branch whose condition is true is among the DNFs of its part. -/
theorem satisfies_form_false (part : SymbolicPart Object Value)
    (merged : ∀ dnf ∈ part.dnfs, Satisfies interpretation (visitDnf obj dnf) subject)
    (behindElse : ∀ branching, part = .conditioned branching → branching.ElseTaken obj →
      ∀ dnf ∈ branching.otherwise, Satisfies interpretation (visitDnf obj dnf) subject) :
    Satisfies interpretation (part.form false obj) subject := by
  cases part with
  | plain dnf => exact merged dnf List.mem_cons_self
  | conditioned branching =>
      rw [SymbolicPart.form, if_neg Bool.false_ne_true, ConditionedDnf.selected]
      cases found : branching.branches.find? fun branch => branch.1.holds obj with
      | some branch => exact merged _ (List.mem_map_of_mem (List.mem_of_find?_eq_some found))
      | none =>
          have taken : branching.ElseTaken obj := by
            intro branch mem
            simpa using List.find?_eq_none.mp found branch mem
          cases otherwise : branching.otherwise with
          | none => exact satisfies_nil
          | some dnf => exact behindElse branching rfl taken dnf otherwise

theorem satisfies_otherwise {branching : ConditionedDnf Object Value} {dnf : Dnf Object Value}
    (taken : branching.ElseTaken obj) (otherwise : dnf ∈ branching.otherwise) :
    Satisfies interpretation ((SymbolicPart.conditioned branching).form false obj) subject ↔
      Satisfies interpretation (visitDnf obj dnf) subject := by
  have none : (branching.branches.find? fun branch => branch.1.holds obj) = none := by
    rw [List.find?_eq_none]
    intro branch mem
    simpa using taken branch mem
  rw [SymbolicPart.form, if_neg Bool.false_ne_true, ConditionedDnf.selected, none, otherwise]
  rfl

/-- The constraints of the dependency graph imply those of the selected branches if and only if
every `else` that is taken follows from the DNFs that are not behind an `else`. -/
theorem branchesApply_iff (interpretation : ConstraintKind → Value → Subject → Prop)
    (obj : Object) (symbolic : List (SymbolicPart Object Value)) :
    BranchesApply interpretation obj symbolic ↔
      ∀ branching, SymbolicPart.conditioned branching ∈ symbolic → branching.ElseTaken obj →
        ∀ otherwise ∈ branching.otherwise, ∀ subject,
          (∀ part ∈ symbolic, ∀ dnf ∈ part.dnfs,
            Satisfies interpretation (visitDnf obj dnf) subject) →
          Satisfies interpretation (visitDnf obj otherwise) subject := by
  simp only [BranchesApply, concretize_eq, Option.some.injEq, exists_and_left, exists_eq_left',
    satisfies_concretized, satisfies_form_true]
  constructor
  · intro applies branching mem taken otherwise isElse subject merged
    exact (satisfies_otherwise taken isElse).mp (applies subject merged _ mem)
  · intro follows subject merged part mem
    refine satisfies_form_false part (merged part mem) ?_
    rintro branching rfl taken dnf isElse
    exact follows branching mem taken dnf isElse subject merged

/-- `if condition() then gt(1) else lt(1)`, for objects that say what the condition yields. -/
def aboveOrBelow : ConditionedDnf Bool Int where
  condition := ⟨id, fun _ => []⟩
  dnf := [[⟨.gt, fun _ => some 1, fun _ => []⟩]]
  elifs := []
  otherwise := some [[⟨.lt, fun _ => some 1, fun _ => []⟩]]

/-- The two comparisons of integers in it. -/
def comparison : ConstraintKind → Int → Int → Prop
  | .gt, value, subject => value < subject
  | .lt, value, subject => subject < value
  | _, _, _ => True

/-- The `else` is dropped for the dependency graph, and a value above 1 is accepted where one
below it is asked for. -/
theorem else_dropped : ¬ BranchesApply comparison false [.conditioned aboveOrBelow] := by
  rintro ⟨merged, selected, isMerged, isSelected, applies⟩
  rw [concretize_eq, Option.some.injEq] at isMerged isSelected
  subst isMerged isSelected
  have accepted := applies 2
  simp only [satisfies_concretized, List.forall_mem_singleton] at accepted
  have taken : aboveOrBelow.ElseTaken false := by
    intro branch mem
    rw [List.mem_singleton.mp mem]
    rfl
  rw [satisfies_form_true, satisfies_otherwise taken rfl, satisfies_visitDnf] at accepted
  have above : ∀ dnf ∈ (SymbolicPart.conditioned aboveOrBelow).dnfs,
      Satisfies comparison (visitDnf false dnf) 2 := by
    intro dnf mem
    rw [List.mem_singleton.mp mem, satisfies_visitDnf]
    exact .inr ⟨_, List.mem_cons_self, by simp [comparison]⟩
  rcases accepted above with empty | ⟨cnf, mem, below⟩
  · contradiction
  · rw [List.mem_singleton.mp mem] at below
    have less : (2 : Int) < 1 := below _ List.mem_cons_self 1 rfl
    exact absurd less (by decide)

end Agreement

end SaltyRtcServer
