/-! A computation that leaves a trail while it runs and then answers or fails.
The trail is kept whatever the outcome is, so a failed run still shows how far
it came. Writers are runs whose trail is bytes, and everything that logs is a
run whose trail is events. -/
namespace VectorTable

structure Run (ω ε α : Type) where
  trail : List ω
  result : Except ε α

namespace Run

variable {ω ε α β : Type}

protected def pure (a : α) : Run ω ε α := ⟨[], .ok a⟩

protected def bind (x : Run ω ε α) (f : α → Run ω ε β) : Run ω ε β :=
  match x.result with
  | .error e => ⟨x.trail, .error e⟩
  | .ok a => ⟨x.trail ++ (f a).trail, (f a).result⟩

instance : Monad (Run ω ε) where
  pure := Run.pure
  bind := Run.bind

/-- Leave one mark on the trail. -/
def tell (w : ω) : Run ω ε Unit := ⟨[w], .ok ()⟩

/-- Leave several marks on the trail. -/
def tellAll (ws : List ω) : Run ω ε Unit := ⟨ws, .ok ()⟩

/-- Stop with an error. -/
def fail (e : ε) : Run ω ε α := ⟨[], .error e⟩

/-- An outcome that leaves no trail. -/
def ofExcept (r : Except ε α) : Run ω ε α := ⟨[], r⟩

instance : MonadLift (Except ε) (Run ω ε) := ⟨ofExcept⟩

/-- The same run with its error put in other words. -/
def mapError {δ : Type} (x : Run ω ε α) (f : ε → δ) : Run ω δ α := ⟨x.trail, x.result.mapError f⟩

@[simp] theorem result_pure (a : α) : (pure a : Run ω ε α).result = .ok a := rfl
@[simp] theorem trail_pure (a : α) : (pure a : Run ω ε α).trail = [] := rfl
@[simp] theorem result_tell (w : ω) : (tell w : Run ω ε Unit).result = .ok () := rfl
@[simp] theorem trail_tell (w : ω) : (tell w : Run ω ε Unit).trail = [w] := rfl
@[simp] theorem result_tellAll (ws : List ω) : (tellAll ws : Run ω ε Unit).result = .ok () := rfl
@[simp] theorem trail_tellAll (ws : List ω) : (tellAll ws : Run ω ε Unit).trail = ws := rfl
@[simp] theorem result_fail (e : ε) : (fail e : Run ω ε α).result = .error e := rfl
@[simp] theorem result_ofExcept (r : Except ε α) : (ofExcept r : Run ω ε α).result = r := rfl
@[simp] theorem trail_ofExcept (r : Except ε α) : (ofExcept r : Run ω ε α).trail = [] := rfl

/-- The result of a sequence is the sequence of the results. -/
@[simp] theorem result_bind (x : Run ω ε α) (f : α → Run ω ε β) :
    (x >>= f).result = x.result >>= fun a => (f a).result := by
  show (Run.bind x f).result = _
  unfold Run.bind
  cases h : x.result <;> simp [bind, Except.bind]

/-- A step that succeeds puts its own trail in front. -/
theorem trail_bind_ok {x : Run ω ε α} {a : α} (f : α → Run ω ε β) (h : x.result = .ok a) :
    (x >>= f).trail = x.trail ++ (f a).trail := by
  show (Run.bind x f).trail = _
  simp [Run.bind, h]

end Run
end VectorTable
