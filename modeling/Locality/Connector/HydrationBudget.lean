/-
  Connector/HydrationBudget.lean --- the counters of an initial hydration:
  `locality-connector/src/hydration_budget.rs`.

  The clones of a budget share one locked set of counters, so one value stands for all of
  them, and an operation is what happens under the lock.  An operation that fails leaves the
  counters, and is an error without new ones here.  Amounts are natural numbers, and the
  checked additions are those of 64 bits.
-/
import Mathlib.Algebra.GroupWithZero.Nat
import Mathlib.Tactic.Common
import Mathlib.Algebra.BigOperators.Group.List.Basic

set_option autoImplicit false

namespace Locality.Connector

/-! ## Resources and limits -/

inductive HydrationResource where
  | responseBodyBytes
  | providerCalls
  | providerDeadline
  | inventoryItems
  | inventoryEncodedBytes
  | traversalNodes
  | traversalDepth
  | nativeBytes
  | mediaAssets
  | mediaDecodedBytes
  | renderedContentBytes
  | projections
  | changes
  | retainedBytes
  deriving DecidableEq, Repr

inductive InitialHydrationError where
  | invalidLimit (resource : HydrationResource)
  | limitExceeded (resource : HydrationResource)
  | providerResponseInvalid
  deriving DecidableEq, Repr

abbrev InitialHydrationResult : Type → Type := Except InitialHydrationError

structure InitialHydrationLimits where
  maxResponseBodyBytes : Nat
  maxProviderCalls : Nat
  providerDeadlineMs : Nat
  maxInventoryItems : Nat
  maxInventoryEncodedBytes : Nat
  maxTraversalNodes : Nat
  maxTraversalDepth : Nat
  maxNativeBytes : Nat
  maxMediaAssets : Nat
  maxMediaDecodedBytes : Nat
  maxRenderedContentBytes : Nat
  maxProjections : Nat
  maxChanges : Nat
  maxRetainedBytes : Nat
  deriving DecidableEq, Repr

namespace InitialHydrationLimits

def limit (limits : InitialHydrationLimits) : HydrationResource → Nat
  | .responseBodyBytes => limits.maxResponseBodyBytes
  | .providerCalls => limits.maxProviderCalls
  | .providerDeadline => limits.providerDeadlineMs
  | .inventoryItems => limits.maxInventoryItems
  | .inventoryEncodedBytes => limits.maxInventoryEncodedBytes
  | .traversalNodes => limits.maxTraversalNodes
  | .traversalDepth => limits.maxTraversalDepth
  | .nativeBytes => limits.maxNativeBytes
  | .mediaAssets => limits.maxMediaAssets
  | .mediaDecodedBytes => limits.maxMediaDecodedBytes
  | .renderedContentBytes => limits.maxRenderedContentBytes
  | .projections => limits.maxProjections
  | .changes => limits.maxChanges
  | .retainedBytes => limits.maxRetainedBytes

/-- The resources in the order in which their limits are checked. -/
def checked : List HydrationResource :=
  [.responseBodyBytes, .providerCalls, .providerDeadline, .inventoryItems,
    .inventoryEncodedBytes, .traversalNodes, .traversalDepth, .nativeBytes, .mediaAssets,
    .mediaDecodedBytes, .renderedContentBytes, .projections, .changes, .retainedBytes]

def validate (limits : InitialHydrationLimits) : InitialHydrationResult InitialHydrationLimits :=
  match checked.find? fun resource => limits.limit resource == 0 with
  | some resource => throw (.invalidLimit resource)
  | none => pure limits

end InitialHydrationLimits

/-! ## Usage -/

structure HydrationUsage where
  responseBodyBytes : Nat := 0
  providerCalls : Nat := 0
  inventoryItems : Nat := 0
  inventoryEncodedBytes : Nat := 0
  traversalNodes : Nat := 0
  nativeBytes : Nat := 0
  mediaAssets : Nat := 0
  mediaDecodedBytes : Nat := 0
  renderedContentBytes : Nat := 0
  projections : Nat := 0
  changes : Nat := 0
  retainedBytes : Nat := 0
  deriving DecidableEq, Repr

namespace HydrationUsage

def get (usage : HydrationUsage) : HydrationResource → Nat
  | .responseBodyBytes => usage.responseBodyBytes
  | .providerCalls => usage.providerCalls
  | .inventoryItems => usage.inventoryItems
  | .inventoryEncodedBytes => usage.inventoryEncodedBytes
  | .traversalNodes => usage.traversalNodes
  | .nativeBytes => usage.nativeBytes
  | .mediaAssets => usage.mediaAssets
  | .mediaDecodedBytes => usage.mediaDecodedBytes
  | .renderedContentBytes => usage.renderedContentBytes
  | .projections => usage.projections
  | .changes => usage.changes
  | .retainedBytes => usage.retainedBytes
  | .providerDeadline | .traversalDepth => 0

def set (usage : HydrationUsage) (resource : HydrationResource) (value : Nat) :
    HydrationUsage :=
  match resource with
  | .responseBodyBytes => { usage with responseBodyBytes := value }
  | .providerCalls => { usage with providerCalls := value }
  | .inventoryItems => { usage with inventoryItems := value }
  | .inventoryEncodedBytes => { usage with inventoryEncodedBytes := value }
  | .traversalNodes => { usage with traversalNodes := value }
  | .nativeBytes => { usage with nativeBytes := value }
  | .mediaAssets => { usage with mediaAssets := value }
  | .mediaDecodedBytes => { usage with mediaDecodedBytes := value }
  | .renderedContentBytes => { usage with renderedContentBytes := value }
  | .projections => { usage with projections := value }
  | .changes => { usage with changes := value }
  | .retainedBytes => { usage with retainedBytes := value }
  | .providerDeadline | .traversalDepth => usage

end HydrationUsage

/-- The resources that have no counter. -/
def HydrationResource.isUncounted (resource : HydrationResource) : Bool :=
  resource == .providerDeadline || resource == .traversalDepth

theorem HydrationUsage.get_set {usage : HydrationUsage} {resource : HydrationResource}
    (hcounted : resource.isUncounted = false) (value : Nat) (other : HydrationResource) :
    (usage.set resource value).get other =
      if resource = other then value else usage.get other := by
  cases resource with
  | providerDeadline | traversalDepth => exact nomatch hcounted
  | _ => cases other <;> rfl

/-! ## Checked arithmetic -/

def checkedAdd (a b : Nat) (error : InitialHydrationError) : InitialHydrationResult Nat :=
  if a + b < 2 ^ 64 then pure (a + b) else throw error

def checkedSub (a b : Nat) (error : InitialHydrationError) : InitialHydrationResult Nat :=
  if b ≤ a then pure (a - b) else throw error

def usizeToU64 (value : Nat) (resource : HydrationResource) : InitialHydrationResult Nat :=
  if value < 2 ^ 64 then pure value else throw (.limitExceeded resource)

/-- The resource does not exceed its limit. -/
def withinLimit (next limit : Nat) (resource : HydrationResource) :
    InitialHydrationResult Unit :=
  if next > limit then throw (.limitExceeded resource) else pure ()

/-! ## Budgets -/

structure InitialHydrationBudget where
  limits : InitialHydrationLimits
  usage : HydrationUsage
  deriving DecidableEq, Repr

def validateReservations (limits : InitialHydrationLimits) :
    HydrationUsage → List (HydrationResource × Nat) → InitialHydrationResult HydrationUsage
  | usage, [] => pure usage
  | usage, (resource, amount) :: reservations =>
      if resource.isUncounted then throw .providerResponseInvalid
      else do
        let next ← checkedAdd (usage.get resource) amount (.limitExceeded resource)
        withinLimit next (limits.limit resource) resource
        validateReservations limits (usage.set resource next) reservations

namespace InitialHydrationBudget

def new (limits : InitialHydrationLimits) : InitialHydrationResult InitialHydrationBudget := do
  let limits ← limits.validate
  pure ⟨limits, {}⟩

def account (budget : InitialHydrationBudget) (reservations : List (HydrationResource × Nat)) :
    InitialHydrationResult InitialHydrationBudget := do
  let next ← validateReservations budget.limits budget.usage reservations
  pure { budget with usage := next }

def releaseRetainedBytes (budget : InitialHydrationBudget) (bytes : Nat) :
    InitialHydrationResult InitialHydrationBudget := do
  let bytes ← usizeToU64 bytes .retainedBytes
  let retained ← checkedSub budget.usage.retainedBytes bytes .providerResponseInvalid
  pure { budget with usage := { budget.usage with retainedBytes := retained } }

def replaceRetainedBytes (budget : InitialHydrationBudget) (releasedBytes addedBytes : Nat) :
    InitialHydrationResult InitialHydrationBudget := do
  let released ← usizeToU64 releasedBytes .retainedBytes
  let added ← usizeToU64 addedBytes .retainedBytes
  let retainedWithoutOwned ←
    checkedSub budget.usage.retainedBytes released .providerResponseInvalid
  let next ← checkedAdd retainedWithoutOwned added (.limitExceeded .retainedBytes)
  withinLimit next budget.limits.maxRetainedBytes .retainedBytes
  pure { budget with usage := { budget.usage with retainedBytes := next } }

/-- The bytes of the reservation, and the budget with them. -/
def reserveMediaBytes (budget : InitialHydrationBudget) (requestedBytes : Nat) :
    InitialHydrationResult (Nat × InitialHydrationBudget) :=
  if requestedBytes = 0 then throw (.limitExceeded .mediaDecodedBytes)
  else do
    let requested ← usizeToU64 requestedBytes .mediaDecodedBytes
    let remainingMedia := budget.limits.maxMediaDecodedBytes - budget.usage.mediaDecodedBytes
    let remainingRetained := budget.limits.maxRetainedBytes - budget.usage.retainedBytes
    let reserved := min (min requested remainingMedia) remainingRetained
    if reserved = 0 then
      throw (.limitExceeded (if remainingMedia = 0 then .mediaDecodedBytes else .retainedBytes))
    else do
      let nextMedia ←
        checkedAdd budget.usage.mediaDecodedBytes reserved (.limitExceeded .mediaDecodedBytes)
      let nextRetained ←
        checkedAdd budget.usage.retainedBytes reserved (.limitExceeded .retainedBytes)
      pure (reserved, { budget with usage := { budget.usage with
        mediaDecodedBytes := nextMedia
        retainedBytes := nextRetained } })

end InitialHydrationBudget

/-! ## Media reservations -/

/-- A reservation of media bytes in the shared budget. -/
structure InitialHydrationMediaReservation where
  reservedBytes : Nat
  deriving DecidableEq, Repr

namespace InitialHydrationMediaReservation

/-- `commit`, up to the drop of a reservation whose commit failed. -/
def tryCommit (reservation : InitialHydrationMediaReservation) (budget : InitialHydrationBudget)
    (actualBodyBytes extraRetainedBytes : Nat) :
    InitialHydrationResult InitialHydrationBudget := do
  let actual ← usizeToU64 actualBodyBytes .mediaDecodedBytes
  let extra ← usizeToU64 extraRetainedBytes .retainedBytes
  if actual > reservation.reservedBytes then throw .providerResponseInvalid
  else do
    let mediaWithoutReservation ← checkedSub budget.usage.mediaDecodedBytes
      reservation.reservedBytes .providerResponseInvalid
    let retainedWithoutReservation ← checkedSub budget.usage.retainedBytes
      reservation.reservedBytes .providerResponseInvalid
    let nextMedia ←
      checkedAdd mediaWithoutReservation actual (.limitExceeded .mediaDecodedBytes)
    let withActual ←
      checkedAdd retainedWithoutReservation actual (.limitExceeded .retainedBytes)
    let nextRetained ← checkedAdd withActual extra (.limitExceeded .retainedBytes)
    withinLimit nextMedia budget.limits.maxMediaDecodedBytes .mediaDecodedBytes
    withinLimit nextRetained budget.limits.maxRetainedBytes .retainedBytes
    pure { budget with usage := { budget.usage with
      mediaDecodedBytes := nextMedia
      retainedBytes := nextRetained } }

/-- `Drop::drop`; the subtractions saturate. -/
def drop (reservation : InitialHydrationMediaReservation) (budget : InitialHydrationBudget) :
    InitialHydrationBudget :=
  if reservation.reservedBytes = 0 then budget
  else { budget with usage := { budget.usage with
    mediaDecodedBytes := budget.usage.mediaDecodedBytes - reservation.reservedBytes
    retainedBytes := budget.usage.retainedBytes - reservation.reservedBytes } }

/-- `commit`: the reservation is consumed, and dropped where it was not committed. -/
def commit (reservation : InitialHydrationMediaReservation) (budget : InitialHydrationBudget)
    (actualBodyBytes extraRetainedBytes : Nat) :
    InitialHydrationResult Unit × InitialHydrationBudget :=
  match reservation.tryCommit budget actualBodyBytes extraRetainedBytes with
  | .ok budget' => (.ok (), budget')
  | .error error => (.error error, reservation.drop budget)

end InitialHydrationMediaReservation

end Locality.Connector
