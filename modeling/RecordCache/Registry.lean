import RecordCache.LocalStore

/-!
Which classes are cached, and for how long. A class that has a window has a store; looking at the same
blobs with another window makes a store of its own.
-/

namespace RecordCache

structure StoreRef where
  number : Nat
  store : LocalStore

structure Registry where
  windows : Fields Json := []
  stores : Fields StoreRef := []
  queues : Fields Nat := []
  made : Nat := 0
  debounce : Json := .float 0.25

namespace Registry

def checkWindow (window : Json) : Except Error Unit :=
  match window.numeric? with
  | none => .error (.data .notOrdered)
  | some w => if (Number.int 0).same w || (Number.int 0).less w then .ok () else .error (.setting .outOfRange)

/-- Declares a class, cached with a window or, with null, not at all. Its store and its queue are made
anew when they are needed next. -/
def register (r : Registry) (className : String) (window : Json) : Except Error Registry := do
  if !window.isNull then checkWindow window
  let windows := if window.isNull then r.windows.erase className else r.windows.set className window
  return { r with windows, stores := r.stores.erase className, queues := r.queues.erase className }

def newStore (r : Registry) (className : String) (window : Json) : StoreRef × Registry :=
  (⟨r.made, ⟨className, window⟩⟩, { r with made := r.made + 1 })

def ownStore (r : Registry) (className : String) : Option StoreRef × Registry :=
  match r.windows.get? className, r.stores.get? className with
  | none, _ => (none, r)
  | some _, some ref => (some ref, r)
  | some window, none =>
    let (ref, r) := r.newStore className window
    (some ref, { r with stores := r.stores.set className ref })

/-- The store with a window; null is the window that the class is registered for. -/
def store (r : Registry) (className : String) (window : Json) : Option StoreRef × Registry :=
  if window.isNull || (r.windows.get? className).any window.same then r.ownStore className
  else
    let (ref, r) := r.newStore className window
    (some ref, r)

end Registry

end RecordCache
