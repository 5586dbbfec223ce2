/-!
# Copies that lag behind

Two parties keep the same state and change it by the same messages. One of them sends the messages,
the other one gets them later, in order. `next` says which messages a state allows, and what becomes
of it; the sender keeps to that, and then the receiver never gets a message that it does not expect.

* `Lags` - the copy has the state of the sender once everything in flight has arrived
* `Lags.send`, `Lags.both` - the sender, or both of them at once, move on
-/

namespace Cepheus.Infra

variable {V M : Type} {next : V → M → Option V} {v w w' : V} {flight : List M} {m : M}

/-- The copy `v` becomes `w` by the messages in flight. -/
def Lags (next : V → M → Option V) : V → List M → V → Prop
  | v, [], w => v = w
  | v, m :: flight, w => ∃ v', next v m = some v' ∧ Lags next v' flight w

/-- The sender sends a message and changes its own state by it. -/
theorem Lags.send : ∀ {v : V} {flight : List M}, Lags next v flight w → next w m = some w' →
    Lags next v (flight ++ [m]) w'
  | _, [], h, hm => ⟨w', h ▸ hm, rfl⟩
  | _, _ :: _, ⟨v', hv, h⟩, hm => ⟨v', hv, h.send hm⟩

/-- Something else happens to both copies, and the messages in flight do not see the difference. -/
theorem Lags.both {f : V → V} (hf : ∀ v m v', next v m = some v' → next (f v) m = some (f v')) :
    ∀ {v : V} {flight : List M}, Lags next v flight w → Lags next (f v) flight (f w)
  | _, [], h => congrArg f h
  | _, _ :: _, ⟨v', hv, h⟩ => ⟨f v', hf _ _ _ hv, h.both hf⟩

end Cepheus.Infra
