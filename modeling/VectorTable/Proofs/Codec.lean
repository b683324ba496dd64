import VectorTable.Bytes.Source
import VectorTable.Bytes.Writer
import Mathlib

/-! The algebra of readers and writers. A reader that answers in steps is taken
apart by `Reader.bind_eq_ok`, a run by `Run.bind_eq_ok`. `Carries w r a` says that
what `w` writes is what `r` reads as `a`, no matter what comes after it; it goes
through sequences and repetitions, so a format is shown to carry a value field by
field. -/
namespace VectorTable

variable {α β : Type}

theorem except_bind_eq_ok {ε : Type} {x : Except ε α} {f : α → Except ε β} {b : β} :
    x >>= f = .ok b ↔ ∃ a, x = .ok a ∧ f a = .ok b := by
  cases x <;> simp [bind, Except.bind]

theorem except_seq_eq_ok {ε : Type} {x : Except ε Unit} {y : Except ε β} {b : β} :
    (x >>= fun _ => y) = .ok b ↔ x = .ok () ∧ y = .ok b := by
  cases x <;> simp [bind, Except.bind]

theorem except_map_eq_ok {ε : Type} {x : Except ε α} {f : α → β} {b : β} :
    f <$> x = .ok b ↔ ∃ a, x = .ok a ∧ f a = b := by
  cases x <;> simp [Functor.map, Except.map]

theorem except_bind_eq_error {ε : Type} {x : Except ε α} {f : α → Except ε β} {e : ε} :
    x >>= f = .error e ↔ x = .error e ∨ ∃ a, x = .ok a ∧ f a = .error e := by
  cases x <;> simp [bind, Except.bind]

theorem except_map_eq_error {ε : Type} {x : Except ε α} {f : α → β} {e : ε} :
    f <$> x = .error e ↔ x = .error e := by
  cases x <;> simp [Functor.map, Except.map]

theorem except_mapError_eq_error {ε ε' : Type} {x : Except ε α} {f : ε → ε'} {e : ε'} :
    x.mapError f = .error e ↔ ∃ fault, x = .error fault ∧ f fault = e := by
  cases x <;> simp [Except.mapError]

theorem except_mapError_eq_ok {ε ε' : Type} {x : Except ε α} {f : ε → ε'} {a : α} :
    x.mapError f = .ok a ↔ x = .ok a := by
  cases x <;> simp [Except.mapError]

namespace Run

variable {ω ε : Type}

theorem bind_ok (a : α) (f : α → Run ω ε β) : liftM (Except.ok a : Except ε α) >>= f = f a := rfl

theorem bind_eq_error {x : Run ω ε α} {f : α → Run ω ε β} {e : ε} :
    (x >>= f).result = .error e ↔
      x.result = .error e ∨ ∃ a, x.result = .ok a ∧ (f a).result = .error e := by
  rw [result_bind, except_bind_eq_error]

theorem bind_eq_ok {x : Run ω ε α} {f : α → Run ω ε β} {b : β} :
    (x >>= f).result = .ok b ↔ ∃ a, x.result = .ok a ∧ (f a).result = .ok b := by
  rw [result_bind, except_bind_eq_ok]

@[simp] theorem result_map (f : α → β) (x : Run ω ε α) : (f <$> x).result = f <$> x.result := by
  show (x >>= fun a => pure (f a)).result = _
  rw [result_bind]
  cases x.result <;> rfl

@[simp] theorem result_mapError {δ : Type} (x : Run ω ε α) (f : ε → δ) :
    (x.mapError f).result = x.result.mapError f := rfl

@[simp] theorem result_liftM (x : Except ε α) : (liftM x : Run ω ε α).result = x := rfl

/-- Logging leaves the answer as it is. -/
theorem result_telling {c : Prop} [Decidable c] (w : ω) (x : Run ω ε β) :
    (if c then tell w >>= fun _ => x else x).result = x.result := by
  by_cases hc : c
  · rw [if_pos hc, result_bind, result_tell]
    rfl
  · rw [if_neg hc]

protected theorem bind_assoc {γ : Type} (x : Run ω ε α) (f : α → Run ω ε β) (g : β → Run ω ε γ) :
    x >>= f >>= g = x >>= fun a => f a >>= g := by
  show Run.bind (Run.bind x f) g = Run.bind x fun a => Run.bind (f a) g
  unfold Run.bind
  cases x.result with
  | error e => rfl
  | ok a =>
    dsimp only
    cases (f a).result <;> simp

theorem map_bind {γ : Type} (x : Run ω ε α) (f : α → Run ω ε β) (g : β → γ) :
    g <$> (x >>= f) = x >>= fun a => g <$> f a := Run.bind_assoc x f fun b => pure (g b)

end Run

namespace Reader

theorem bind_eq_ok {r : Reader α} {f : α → Reader β} {s : Source} {x : β × Source} :
    (r >>= f) s = .ok x ↔ ∃ a s', r s = .ok (a, s') ∧ f a s' = .ok x := by
  show (r s >>= fun y => f y.1 y.2) = .ok x ↔ _
  rw [except_bind_eq_ok, Prod.exists]

theorem bind_eq_error {r : Reader α} {f : α → Reader β} {s : Source} {e : Error} :
    (r >>= f) s = .error e ↔ r s = .error e ∨ ∃ a s', r s = .ok (a, s') ∧ f a s' = .error e := by
  show (r s >>= fun y => f y.1 y.2) = .error e ↔ _
  rw [except_bind_eq_error, Prod.exists]

theorem pure_eq_ok {a b : α} {s s' : Source} :
    (pure a : Reader α) s = .ok (b, s') ↔ a = b ∧ s = s' := by
  show Except.ok (a, s) = .ok (b, s') ↔ _
  rw [Except.ok.injEq, Prod.mk.injEq]

theorem fail_ne_ok {e : Error} {s : Source} {x : α × Source} : (fail e : Reader α) s ≠ .ok x := by
  intro h
  cases h

@[simp] theorem ofExcept_ok_bind (a : α) (f : α → Reader β) : ofExcept (.ok a) >>= f = f a := rfl

/-- The answers of a repetition come behind those given before it. -/
theorem timesOnto_eq (r : Reader α) (done : List α) (n : Nat) (s : Source) :
    timesOnto r done n s = (times n r s).map fun x => (done.reverse ++ x.1, x.2) := by
  induction n generalizing done s with
  | zero => simp [timesOnto, times, Except.map]
  | succ n ih =>
    simp only [times, timesOnto]
    cases r s with
    | error e => rfl
    | ok x =>
      simp only [ih (x.1 :: done), ih [x.1]]
      cases times n r x.2 <;> simp [Except.map]

theorem times_succ (n : Nat) (r : Reader α) :
    times (n + 1) r = r >>= fun a => times n r >>= fun rest => pure (a :: rest) := by
  funext s
  show timesOnto r [] (n + 1) s =
    r s >>= fun x => times n r x.2 >>= fun y => .ok (x.1 :: y.1, y.2)
  rw [timesOnto]
  dsimp only
  cases r s with
  | error e => rfl
  | ok x =>
    show timesOnto r [x.1] n x.2 = times n r x.2 >>= fun y => .ok (x.1 :: y.1, y.2)
    rw [timesOnto_eq]
    cases times n r x.2 <;> rfl

end Reader

/-- The reader takes exactly `bytes` for `a`, whatever follows them. -/
def Reads (r : Reader α) (bytes : List UInt8) (a : α) : Prop :=
  ∀ rest ending, r ⟨bytes ++ rest, ending⟩ = .ok (a, ⟨rest, ending⟩)

/-- The writer succeeds and leaves exactly `bytes`. -/
def Writes (w : Writer Unit) (bytes : List UInt8) : Prop :=
  w.result = .ok () ∧ w.trail = bytes

/-- The reader takes what the writer leaves for `a`. -/
def Carries (w : Writer Unit) (r : Reader α) (a : α) : Prop :=
  ∃ bytes, Writes w bytes ∧ Reads r bytes a

theorem Reads.pure (a : α) : Reads (Pure.pure a) [] a := fun _ _ => rfl

theorem Reads.bind {r : Reader α} {f : α → Reader β} {front back : List UInt8} {a : α} {b : β}
    (hr : Reads r front a) (hf : Reads (f a) back b) : Reads (r >>= f) (front ++ back) b := by
  intro rest ending
  rw [Reader.bind_eq_ok]
  exact ⟨a, _, by rw [List.append_assoc, hr], hf rest ending⟩

theorem Writes.bind {w v : Writer Unit} {front back : List UInt8} (hw : Writes w front)
    (hv : Writes v back) : Writes (w >>= fun _ => v) (front ++ back) := by
  obtain ⟨hw, rfl⟩ := hw
  obtain ⟨hv, rfl⟩ := hv
  exact ⟨Run.bind_eq_ok.mpr ⟨(), hw, hv⟩, Run.trail_bind_ok _ hw⟩

theorem Writes.put (bytes : List UInt8) : Writes (Writer.put bytes) bytes := ⟨rfl, rfl⟩

theorem Reads.exactly {bytes : List UInt8} {n : Nat} (h : bytes.length = n) (what : String) :
    Reads (Reader.exactly n what) bytes bytes := by
  intro rest ending
  simp only [Reader.exactly, List.take_left' h, h, if_true, List.drop_left' h]

theorem Reads.upTo {bytes : List UInt8} {n : Nat} (h : bytes.length = n) :
    Reads (Reader.upTo n) bytes bytes := by
  intro rest ending
  simp only [Reader.upTo, List.take_left' h, h, if_true, List.drop_left' h]

theorem Writes.output {w : Writer Unit} {bytes : List UInt8} (h : Writes w bytes) :
    w.output = .ok bytes := by
  obtain ⟨hw, rfl⟩ := h
  rw [Writer.output, hw]
  rfl

theorem Writes.of_output {w : Writer Unit} {bytes : List UInt8} (h : w.output = .ok bytes) :
    Writes w bytes := by
  obtain ⟨⟨⟩, hw, hb⟩ := except_map_eq_ok.mp h
  exact ⟨hw, hb⟩

namespace Carries

theorem pure (a : α) : Carries (Pure.pure ()) (Pure.pure a) a :=
  ⟨[], ⟨rfl, rfl⟩, Reads.pure a⟩

theorem bind {w v : Writer Unit} {r : Reader α} {f : α → Reader β} {a : α} {b : β}
    (h : Carries w r a) (h' : Carries v (f a) b) : Carries (w >>= fun _ => v) (r >>= f) b := by
  obtain ⟨front, hw, hr⟩ := h
  obtain ⟨back, hv, hf⟩ := h'
  exact ⟨front ++ back, hw.bind hv, hr.bind hf⟩

/-- The last field of a value: the reader only puts it in place. -/
theorem map {w : Writer Unit} {r : Reader α} {f : α → Reader β} {a : α} {b : β}
    (h : Carries w r a) (h' : Reads (f a) [] b) : Carries w (r >>= f) b := by
  obtain ⟨bytes, hw, hr⟩ := h
  exact ⟨bytes, hw, by simpa using hr.bind h'⟩

theorem times {w : α → Writer Unit} {r : Reader α} {l : List α} (h : ∀ a ∈ l, Carries (w a) r a) :
    Carries (l.forM w) (Reader.times l.length r) l := by
  induction l with
  | nil => exact pure []
  | cons a l ih =>
    rw [List.length_cons, Reader.times_succ]
    exact (h a (by simp)).bind ((ih fun b hb => h b (by simp [hb])).map (Reads.pure (a :: l)))

end Carries
end VectorTable
