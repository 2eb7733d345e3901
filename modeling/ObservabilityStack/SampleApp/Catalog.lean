import ObservabilityStack.Lib.Dict
import ObservabilityStack.SampleApp.FaultApi

/-!
# `app/main.py`: catalogue and orders

The models of the API and the bodies of its endpoints, each without the dependency `apply_faults`
that runs before it. `create_order` waits once, so it is two functions: `lookup` before the wait,
`createOrder` after it.

The catalogue is the data of the demonstration and plays no part in what is proved about the
service, except that there is something for the endpoints to return and something to be missing. It
is kept as the source has it, so that a status can be traced to the request that caused it.
-/

set_option autoImplicit false

namespace ObservabilityStack
namespace SampleApp

structure Item where
  id : ℤ
  name : String
  priceCents : ℤ
  deriving DecidableEq, Repr

structure Order where
  id : String
  itemId : ℤ
  quantity : ℤ
  totalCents : ℤ
  deriving DecidableEq, Repr

structure OrderRequest where
  itemId : ℤ
  quantity : ℤ
  item_ge : 1 ≤ itemId
  quantity_mem : 1 ≤ quantity ∧ quantity ≤ 100
  deriving DecidableEq

/-- `CATALOG`. -/
def catalog : Dict ℤ Item where
  entries :=
    [(1, ⟨1, "ferrofluid display", 18900⟩), (2, ⟨2, "nixie clock kit", 7450⟩),
     (3, ⟨3, "thermal printer", 12300⟩), (4, ⟨4, "rotary encoder pack", 1990⟩)]
  nodup := by decide

/-- `list_items`. -/
def listItems (limit : ℤ) : Except HTTPException (List Item) :=
  if limit < 1 ∨ limit > 100 then .error ⟨422, "limit must be within [1, 100]"⟩
  else .ok (catalog.values.take limit.toNat)

/-- `get_item`. -/
def getItem (itemId : ℤ) : Except HTTPException Item :=
  match catalog.get? itemId with
  | none => .error ⟨404, s!"no item {itemId}"⟩
  | some item => .ok item

/-- `create_order`, the span `catalog.lookup`. -/
def lookup (payload : OrderRequest) : Except HTTPException Item :=
  match catalog.get? payload.itemId with
  | none => .error ⟨404, s!"no item {payload.itemId}"⟩
  | some item => .ok item

theorem status_of_lookup {payload : OrderRequest} {exc : HTTPException}
    (h : lookup payload = .error exc) : exc.statusCode = 404 := by
  unfold lookup at h
  split at h <;> cases h
  rfl

/-- `create_order`, from the counter on. -/
def createOrder (payload : OrderRequest) (item : Item) (id : String) : Order where
  id := id
  itemId := item.id
  quantity := payload.quantity
  totalCents := item.priceCents * payload.quantity

/-- An item stands under its own id. -/
theorem id_of_catalog {itemId : ℤ} {item : Item} (h : catalog.get? itemId = some item) :
    item.id = itemId := by
  have hall : ∀ e ∈ catalog.entries, e.2.id = e.1 := by decide
  exact hall (itemId, item) (Dict.mem_entries.mpr h)

/-- What is ordered is priced at what the catalogue asks for it. -/
theorem lookup_ok {payload : OrderRequest} {item : Item} (h : lookup payload = .ok item) :
    item.id = payload.itemId ∧ item ∈ catalog.values := by
  unfold lookup at h
  split at h
  · cases h
  · rename_i found hfound
    cases h
    exact ⟨id_of_catalog hfound, Dict.mem_values.mpr ⟨_, hfound⟩⟩

end SampleApp
end ObservabilityStack
