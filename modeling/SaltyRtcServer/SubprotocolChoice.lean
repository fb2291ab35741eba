import SaltyRtcServer.PacketServer

/-!
# The choice of the sub-protocol

`select_subprotocol` sorts the common names by the sum of their positions and takes
the first.  The names come from a set, so that the order in which it is enumerated
decides between names with the same sum.  The choice is made twice: when the
connection is negotiated, and from the list that the client repeats in its
client-auth message.
-/

namespace SaltyRtcServer

/-- The sum of the first positions of a name in both lists. -/
def combinedIndex (client server : List String) (name : String) : Nat :=
  client.idxOf name + server.idxOf name

/-- A common name with the least sum of positions. -/
structure IsBest (client server : List String) (name : String) : Prop where
  offered : name ∈ client
  supported : name ∈ server
  least : ∀ other ∈ client, other ∈ server →
    combinedIndex client server name ≤ combinedIndex client server other

/-- There is at most one best name. -/
def Untied (client server : List String) : Prop :=
  ∀ one other, IsBest client server one → IsBest client server other → one = other

theorem isPacketError_downgradeError (message : String) :
    (PyException.downgradeError message).isPacketError = true := rfl

/-- The message of a client-auth list that leads to another choice. -/
def downgradeDetected : PacketError :=
  ⟨.downgradeError "Subprotocol downgrade detected", isPacketError_downgradeError _⟩

/-- The set of common names is enumerated with one of them first. -/
def Environment.preferring (environment : Environment) (name : String) : Environment :=
  { environment with
    common := fun first second =>
      if name ∈ environment.common first second then
        name :: (environment.common first second).erase name
      else environment.common first second
    mem_common := fun first second other => by
      rw [← environment.mem_common]
      split
      · next mem => exact (List.perm_cons_erase mem).mem_iff.symm
      · exact Iff.rfl
    nodup_common := fun first second => by
      have nodup := environment.nodup_common first second
      split
      · next mem => exact (List.perm_cons_erase mem).nodup_iff.mp nodup
      · exact nodup }

section Sorted

variable {Item : Type*} {rank : Item → Nat} {items : List Item} {first : Item}

/-- The first item of the sorted list has the least rank. -/
theorem least_of_head?_insertionSort
    (found : (items.insertionSort fun one other => rank one ≤ rank other).head? = some first) :
    first ∈ items ∧ ∀ other ∈ items, rank first ≤ rank other := by
  have sorted := List.pairwise_insertionSort (fun one other : Item => rank one ≤ rank other) items
  obtain ⟨rest, split⟩ := List.head?_eq_some_iff.mp found
  rw [split, List.pairwise_cons] at sorted
  have members : ∀ other, other ∈ items ↔ other ∈ first :: rest := by
    intro other
    rw [← split, List.mem_insertionSort]
  refine ⟨(members first).mpr List.mem_cons_self, fun other mem => ?_⟩
  rcases List.mem_cons.mp ((members other).mp mem) with rfl | later
  · exact le_refl _
  · exact sorted.1 other later

/-- An item of the least rank stays first. -/
theorem head?_insertionSort_cons (least : ∀ other ∈ items, rank first ≤ rank other) :
    ((first :: items).insertionSort fun one other => rank one ≤ rank other).head? = some first := by
  rw [List.insertionSort_cons]
  cases sorted : items.insertionSort fun one other => rank one ≤ rank other with
  | nil => rfl
  | cons next rest =>
      have mem : next ∈ items := by
        rw [← List.mem_insertionSort fun one other : Item => rank one ≤ rank other, sorted]
        exact List.mem_cons_self
      rw [List.orderedInsert, if_pos (least next mem)]
      rfl

end Sorted

section Choice

variable {environment : Environment} {client server : List String} {name : String}

/-- The choice is the first of the common names in the order of their sums. -/
theorem selectSubprotocol_eq (environment : Environment) (client server : List String) :
    selectSubprotocol environment client server =
      ((environment.common client server).insertionSort fun first second =>
        combinedIndex client server first ≤ combinedIndex client server second).head? := by
  unfold selectSubprotocol
  dsimp only
  split
  · next none =>
    rw [none]
    rfl
  · rfl

theorem selectSubprotocol_eq_none_iff :
    selectSubprotocol environment client server = none ↔ ∀ name ∈ client, name ∉ server := by
  rw [selectSubprotocol_eq, List.head?_eq_none_iff, ← List.length_eq_zero_iff,
    List.length_insertionSort, List.length_eq_zero_iff, List.eq_nil_iff_forall_not_mem]
  simp only [environment.mem_common, not_and]

/-- Whatever the order of the set is, the choice is a best name. -/
theorem isBest_of_selectSubprotocol
    (chosen : selectSubprotocol environment client server = some name) :
    IsBest client server name := by
  rw [selectSubprotocol_eq] at chosen
  obtain ⟨mem, least⟩ := least_of_head?_insertionSort chosen
  obtain ⟨offered, supported⟩ := (environment.mem_common client server name).mp mem
  exact ⟨offered, supported, fun other inClient inServer =>
    least other ((environment.mem_common client server other).mpr ⟨inClient, inServer⟩)⟩

/-- In some order of the set, any best name is chosen. -/
theorem selectSubprotocol_preferring (environment : Environment)
    (best : IsBest client server name) :
    selectSubprotocol (environment.preferring name) client server = some name := by
  have mem : name ∈ environment.common client server :=
    (environment.mem_common client server name).mpr ⟨best.offered, best.supported⟩
  have enumerated : (environment.preferring name).common client server =
      name :: (environment.common client server).erase name := if_pos mem
  rw [selectSubprotocol_eq, enumerated]
  apply head?_insertionSort_cons
  intro other inRest
  obtain ⟨offered, supported⟩ :=
    (environment.mem_common client server other).mp (List.mem_of_mem_erase inRest)
  exact best.least other offered supported

theorem chooseKey_ne_downgrade (environment : Environment) (session : Session)
    (key : Option PublicKey) :
    (session.chooseKey environment key).2 ≠ .error downgradeDetected := by
  unfold Session.chooseKey
  split
  · split
    · simp [downgradeDetected, Subtype.ext_iff]
    · split <;> simp [downgradeDetected, Subtype.ext_iff]
  · split <;> simp

/-- A list is rejected as a downgrade if and only if the choice from it is another one. -/
theorem handleClientAuth_downgrade_iff {subprotocol : SubProtocol} {session : Session}
    {clientAuth : ClientAuth} (cookie : clientAuth.yourCookie = session.drawn.cookieOut) :
    (session.handleClientAuth environment subprotocol clientAuth).2 = .error downgradeDetected ↔
      selectSubprotocol environment clientAuth.subprotocols environment.subprotocols ≠
        some subprotocol.value := by
  rw [Session.handleClientAuth, if_neg (not_not.mpr cookie)]
  split
  · next differs => exact iff_of_true rfl differs
  · next same => exact iff_of_false (chooseKey_ne_downgrade _ _ _) same

/-- The choice of the sub-protocol does not depend on the order of a set, and is made in the
same way by both callers. -/
structure SelectsWell (client server : List String) : Prop where
  none_iff : ∀ environment, selectSubprotocol environment client server = none ↔
    ∀ name ∈ client, name ∉ server
  best : ∀ environment, ∀ name ∈ selectSubprotocol environment client server,
    IsBest client server name
  same : ∀ one other,
    selectSubprotocol one client server = selectSubprotocol other client server
  agrees : ∀ (negotiating validating : Environment) (subprotocol : SubProtocol)
    (session : Session) (clientAuth : ClientAuth), validating.subprotocols = server →
    clientAuth.subprotocols = client → clientAuth.yourCookie = session.drawn.cookieOut →
    selectSubprotocol negotiating client server = some subprotocol.value →
    (session.handleClientAuth validating subprotocol clientAuth).2 ≠ .error downgradeDetected
  rejects : ∀ (validating : Environment) (subprotocol : SubProtocol) (session : Session)
    (clientAuth : ClientAuth), validating.subprotocols = server →
    clientAuth.subprotocols = client → clientAuth.yourCookie = session.drawn.cookieOut →
    ¬ IsBest client server subprotocol.value →
    (session.handleClientAuth validating subprotocol clientAuth).2 = .error downgradeDetected

theorem same_of_untied (untied : Untied client server) (one other : Environment) :
    selectSubprotocol one client server = selectSubprotocol other client server := by
  cases first : selectSubprotocol one client server with
  | none =>
      rw [selectSubprotocol_eq_none_iff] at first
      exact (selectSubprotocol_eq_none_iff.mpr first).symm
  | some name =>
      have best := isBest_of_selectSubprotocol first
      cases second : selectSubprotocol other client server with
      | none =>
          rw [selectSubprotocol_eq_none_iff] at second
          exact absurd best.supported (second name best.offered)
      | some found => rw [untied name found best (isBest_of_selectSubprotocol second)]

/-- An environment with nothing but the lists of names. -/
def emptyEnvironment (subprotocols : List String) : Environment :=
  .keyless (fun _ => none) (fun _ _ _ => none) subprotocols

/-- The choice is well-defined if and only if no two names are best. -/
theorem selectsWell_iff (client server : List String) :
    SelectsWell client server ↔ Untied client server := by
  constructor
  · intro well one other bestOne bestOther
    have chosen := well.same ((emptyEnvironment server).preferring one)
      ((emptyEnvironment server).preferring other)
    rw [selectSubprotocol_preferring _ bestOne, selectSubprotocol_preferring _ bestOther] at chosen
    exact Option.some.inj chosen
  · intro untied
    constructor
    · exact fun environment => selectSubprotocol_eq_none_iff
    · exact fun environment name chosen => isBest_of_selectSubprotocol chosen
    · exact same_of_untied untied
    · rintro negotiating validating subprotocol session clientAuth rfl rfl cookie negotiated
      rw [Ne, handleClientAuth_downgrade_iff cookie, not_not]
      exact (same_of_untied untied validating negotiating).trans negotiated
    · rintro validating subprotocol session clientAuth rfl rfl cookie notBest
      rw [handleClientAuth_downgrade_iff cookie]
      exact fun chosen => notBest (isBest_of_selectSubprotocol chosen)

/-- With two names in opposite orders, the set decides, and a client that repeats its list is
rejected. -/
theorem tied_choice :
    let client := ["v1.saltyrtc.org", "v2.saltyrtc.org"]
    let server := ["v2.saltyrtc.org", "v1.saltyrtc.org"]
    selectSubprotocol (emptyEnvironment server) client server = some "v1.saltyrtc.org" ∧
      selectSubprotocol ((emptyEnvironment server).preferring "v2.saltyrtc.org") client server =
        some "v2.saltyrtc.org" ∧ ¬ SelectsWell client server := by
  have first : selectSubprotocol (emptyEnvironment ["v2.saltyrtc.org", "v1.saltyrtc.org"])
      ["v1.saltyrtc.org", "v2.saltyrtc.org"] ["v2.saltyrtc.org", "v1.saltyrtc.org"] =
      some "v1.saltyrtc.org" := by decide +kernel
  have second : selectSubprotocol
      ((emptyEnvironment ["v2.saltyrtc.org", "v1.saltyrtc.org"]).preferring "v2.saltyrtc.org")
      ["v1.saltyrtc.org", "v2.saltyrtc.org"] ["v2.saltyrtc.org", "v1.saltyrtc.org"] =
      some "v2.saltyrtc.org" := by decide +kernel
  refine ⟨first, second, fun well => ?_⟩
  have same := well.same (emptyEnvironment ["v2.saltyrtc.org", "v1.saltyrtc.org"])
    ((emptyEnvironment ["v2.saltyrtc.org", "v1.saltyrtc.org"]).preferring "v2.saltyrtc.org")
  rw [first, second] at same
  exact absurd (Option.some.inj same) (by decide)

end Choice

end SaltyRtcServer
