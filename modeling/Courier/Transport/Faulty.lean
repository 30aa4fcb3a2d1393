import Courier.Transport.Basic

/-!
# Faulty transports

A transport in front of another one that lets a number of calls fail before they reach it.
-/

namespace Courier

/-- A transport and how many of the next calls of each kind fail. -/
structure Faulty (τ : Type) where
  inner : τ
  failConnects : Nat
  failPushes : Nat
  failPolls : Nat

namespace Faulty

variable {τ : Type}

def new (inner : τ) : Faulty τ :=
  ⟨inner, 0, 0, 0⟩

def mapInner (t : Faulty τ) (f : τ → τ) : Faulty τ :=
  { t with inner := f t.inner }

instance [Transport τ] : Transport (Faulty τ) where
  connect t remote :=
    match t.failConnects with
    | n + 1 => (.error (.connectFailed remote), { t with failConnects := n })
    | 0 =>
      let (result, inner) := Transport.connect t.inner remote
      (result, { t with inner := inner })
  push t shipment destination :=
    match t.failPushes with
    | n + 1 => (.error .closed, { t with failPushes := n })
    | 0 =>
      let (result, inner) := Transport.push t.inner shipment destination
      (result, { t with inner := inner })
  poll t :=
    match t.failPolls with
    | n + 1 => (.error .connectionLost, { t with failPolls := n })
    | 0 =>
      let (result, inner) := Transport.poll t.inner
      (result, { t with inner := inner })
  close t := { t with inner := Transport.close t.inner }
  status t := Transport.status t.inner
  packets t := Transport.packets t.inner
  statusEvents t := Transport.statusEvents t.inner

end Faulty

end Courier
