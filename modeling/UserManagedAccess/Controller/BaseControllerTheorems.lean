/-
UserManagedAccess.Controller.BaseControllerTheorems — writing a changed copy
back makes the store that copy, when nothing else runs meanwhile.
-/
import UserManagedAccess.Controller.BaseController

namespace UserManagedAccess.Controller

open UserManagedAccess.Lib UserManagedAccess.Rdf UserManagedAccess.Util UserManagedAccess.Ucp

namespace BaseController

theorem run_writeBack (controller : BaseController ControllerState)
    (hstore : controller.store = memoryUCRulesStorage) (filteredStore : Store)
    (s : ControllerState) :
    (controller.writeBack filteredStore).run s =
      (.ok { status := 204 }, s.replace filteredStore) := by
  unfold writeBack ControllerState.replace
  simp only [hstore, memoryUCRulesStorage, Async.run_bind, Async.run_yield, Async.run_get,
    Async.run_pure]
  -- an empty difference is not written
  by_cases hremove : (s.policies.difference filteredStore).size > 0 <;>
    by_cases hadd : (filteredStore.difference s.policies).size > 0
  · simp [hremove, hadd, Async.run_bind]
  · rw [Store.eq_empty_of_size hadd]
    simp [hremove, Async.run_bind]
  · rw [Store.eq_empty_of_size hremove]
    simp [hadd, Async.run_bind]
  · rw [Store.eq_empty_of_size hremove, Store.eq_empty_of_size hadd]
    simp

end BaseController

end UserManagedAccess.Controller
