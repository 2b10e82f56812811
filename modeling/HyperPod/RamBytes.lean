import HyperPod.Ram
import HyperPod.Lib.Run

/-!
# Guest RAM as a bounds-checked byte array

Slices and plain values are written to guest RAM and read from it, at any address.  A
call is served exactly when it ends inside the buffer (`run_act_inside`,
`run_act_outside`), so what a run of calls leaves is what its served writes store
(`final_step`): in each byte the last one written there, whatever overlaps
(`byte_array`).
-/

namespace HyperPod

open Machine Bytes

namespace GuestRam

/-- A call on guest RAM, by the type of what it returns. -/
inductive Call : Type → Type 1 where
  | writeSlice (gpa : UInt64) (data : List UInt8) : Call Unit
  | writeObj {T : Type} [Pod T] (gpa : UInt64) (val : T) : Call Unit
  | readSlice (gpa : UInt64) (n : Nat) : Call (List UInt8)
  | readObj {T : Type} [Pod T] (gpa : UInt64) : Call T

namespace Call

variable {α : Type}

def act : Call α → Act GuestRam α
  | .writeSlice gpa data => GuestRam.writeSlice gpa.toNat data
  | @writeObj _ _ gpa val => GuestRam.writeObj gpa.toNat val
  | .readSlice gpa n => do Act.lift ((← Act.get).readSlice gpa.toNat n)
  | @readObj _ _ gpa => do Act.lift ((← Act.get).readObj gpa.toNat)

def gpa : Call α → UInt64
  | .writeSlice gpa _ => gpa
  | @writeObj _ _ gpa _ => gpa
  | .readSlice gpa _ => gpa
  | @readObj _ _ gpa => gpa

/-- How many bytes the call reaches. -/
def len : Call α → Nat
  | .writeSlice _ data => data.length
  | @writeObj T _ _ _ => Pod.size T
  | .readSlice _ n => n
  | @readObj T _ _ => Pod.size T

/-- What a write stores. -/
def data : Call α → Option (List UInt8)
  | .writeSlice _ data => some data
  | @writeObj _ _ _ val => some (Pod.toBytes val)
  | .readSlice _ _ => none
  | @readObj _ _ _ => none

/-- The call ends inside a buffer of `size` bytes. -/
def Inside (size : Nat) (c : Call α) : Prop := c.gpa.toNat + c.len ≤ size

instance (size : Nat) (c : Call α) : Decidable (c.Inside size) :=
  inferInstanceAs (Decidable (_ ≤ _))

/-- The writes that the call makes when it is served. -/
def writes (c : Call α) : List (Patch UInt8) := (c.data.map fun data => (c.gpa.toNat, data)).toList

end Call

/-- The RAM after a call, whatever the call returned. -/
def step (ram : GuestRam) (c : Σ α, Call α) : Unit × GuestRam := ((), (c.2.act.run ram).2)

/-- The writes of a run that are served, oldest first. -/
def served (size : Nat) (calls : List (Σ α, Call α)) : List (Patch UInt8) :=
  calls.flatMap fun c => if c.2.Inside size then c.2.writes else []

/-- RAM of any size, as the host hands it out. -/
def zeroed (size : UInt64) : GuestRam := ⟨size.toNat, fun _ => 0, size.toNat_lt⟩

theorem zeroed_of_new {alloc : Nat → Result Unit} {sizeMib : UInt64} {ram : GuestRam}
    (h : GuestRam.new alloc sizeMib = .ok ram) : ∃ size, ram = zeroed size := by
  unfold GuestRam.new at h
  split at h
  · next hlt =>
    obtain ⟨u, -, hram⟩ := Outcome.bind_eq_ok.mp h
    cases hram
    refine ⟨UInt64.ofNat (sizeMib.toNat * mib), ?_⟩
    have hsize : (UInt64.ofNat (sizeMib.toNat * mib)).toNat = sizeMib.toNat * mib := by
      rw [UInt64.toNat_ofNat']
      exact Nat.mod_eq_of_lt hlt
    unfold zeroed
    congr 1
    exact hsize.symm
  · cases h

/-! ## One call -/

section
variable {α : Type} {ram : GuestRam}

/-- A call that ends inside the buffer is served, and makes its writes. -/
theorem run_act_inside {c : Call α} (h : c.Inside ram.size) :
    ∃ a, c.act.run ram = (.ok a, ram.puts c.writes) := by
  cases c with
  | writeSlice gpa data => exact ⟨(), run_writeSlice_eq_ok.mpr ⟨h, rfl⟩⟩
  | writeObj gpa val => exact ⟨(), run_writeObj_eq_ok.mpr ⟨h, rfl⟩⟩
  | readSlice gpa n =>
    have hread := readSlice_eq_ok.mpr ⟨h, rfl⟩
    exact ⟨_, congrArg (·, ram) hread⟩
  | readObj gpa =>
    have hread := readObj_eq_ok.mpr ⟨h, rfl⟩
    exact ⟨_, congrArg (·, ram) hread⟩

/-- Any other call is rejected, and changes nothing. -/
theorem run_act_outside {c : Call α} (h : ¬ c.Inside ram.size) :
    ∃ e, c.act.run ram = (.err e, ram) := by
  cases c with
  | writeSlice gpa data => exact run_writeSlice_outside h
  | writeObj gpa val =>
    apply run_writeSlice_outside
    rw [Pod.length_toBytes]
    exact h
  | readSlice gpa n =>
    obtain ⟨e, he⟩ := readSlice_outside h
    exact ⟨e, congrArg (·, ram) he⟩
  | readObj gpa =>
    obtain ⟨e, he⟩ := readObj_outside h
    exact ⟨e, congrArg (·, ram) he⟩

theorem length_of_data {c : Call α} {data : List UInt8} (h : c.data = some data) :
    data.length = c.len := by
  cases c with
  | writeSlice gpa bytes =>
    cases h
    rfl
  | writeObj gpa val =>
    cases h
    exact Pod.length_toBytes val
  | readSlice gpa n => cases h
  | readObj gpa => cases h

/-- What a served write changes: its own bytes. -/
theorem window_puts_writes {c : Call α} {data : List UInt8} (h : c.data = some data) :
    window (ram.puts c.writes).mem c.gpa.toNat c.len = data ∧
      ∀ a, a < c.gpa.toNat ∨ c.gpa.toNat + c.len ≤ a → (ram.puts c.writes).mem a = ram.mem a := by
  have hlen : data.length = c.len := length_of_data h
  have hwrites : c.writes = [(c.gpa.toNat, data)] := by
    unfold Call.writes
    rw [h]
    rfl
  rw [hwrites, ← hlen]
  exact ⟨window_overlay_self ram.mem c.gpa.toNat data, fun a ha => overlay_of_not_mem ha⟩

/-- **One call is bounds-checked:** served exactly when it ends inside the buffer, and
otherwise rejected with every byte as it was; a served write changes its own bytes. -/
theorem act_checked (ram : GuestRam) (c : Call α) :
    ((∃ a, (c.act.run ram).1 = .ok a) ↔ c.gpa.toNat + c.len ≤ ram.size) ∧
    ((∃ e, (c.act.run ram).1 = .err e) ↔ ¬ c.gpa.toNat + c.len ≤ ram.size) ∧
    (∀ e, (c.act.run ram).1 = .err e → (c.act.run ram).2 = ram) ∧
    (∀ a, (c.act.run ram).1 = .ok a →
      (c.data = none → (c.act.run ram).2 = ram) ∧
      ∀ data, c.data = some data →
        window (c.act.run ram).2.mem c.gpa.toNat c.len = data ∧
        ∀ b, b < c.gpa.toNat ∨ c.gpa.toNat + c.len ≤ b →
          (c.act.run ram).2.mem b = ram.mem b) := by
  by_cases h : c.gpa.toNat + c.len ≤ ram.size
  · obtain ⟨a, ha⟩ := run_act_inside (c := c) h
    rw [ha]
    refine ⟨⟨fun _ => h, fun _ => ⟨a, rfl⟩⟩, ⟨fun he => ?_, fun hn => absurd h hn⟩,
      fun e he => ?_, fun b _ => ⟨fun hnone => ?_, fun data hdata => window_puts_writes hdata⟩⟩
    · obtain ⟨e, he⟩ := he
      cases he
    · cases he
    · unfold Call.writes
      rw [hnone]
      rfl
  · obtain ⟨e, he⟩ := run_act_outside (c := c) h
    rw [he]
    refine ⟨⟨fun hok => ?_, fun hin => absurd hin h⟩, ⟨fun _ => h, fun _ => ⟨e, rfl⟩⟩,
      fun _ _ => rfl, fun b hb => ?_⟩
    · obtain ⟨a, ha⟩ := hok
      cases ha
    · cases hb

/-! ## A run of calls -/

theorem step_eq (ram : GuestRam) (c : Σ α, Call α) :
    (step ram c).2 = ram.puts (if c.2.Inside ram.size then c.2.writes else []) := by
  unfold step
  by_cases h : c.2.Inside ram.size
  · obtain ⟨a, ha⟩ := run_act_inside h
    rw [if_pos h, ha]
  · obtain ⟨e, he⟩ := run_act_outside h
    rw [if_neg h, he]
    rfl

/-- A run leaves what its served writes store. -/
theorem final_step (ram : GuestRam) (calls : List (Σ α, Call α)) :
    Run.final step ram calls = ram.puts (served ram.size calls) := by
  induction calls generalizing ram with
  | nil => rfl
  | cons c calls ih =>
    rw [Run.final_cons, step_eq, ih, size_puts, ← puts_append]
    rfl

/-- The bytes that a read of fresh RAM finds after a run. -/
theorem window_final (size : UInt64) (calls : List (Σ α, Call α)) (gpa n : Nat) :
    window (Run.final step (zeroed size) calls).mem gpa n =
      (List.range n).map fun i => (lastStored (gpa + i) (served size.toNat calls)).getD 0 := by
  rw [final_step]
  exact List.map_congr_left fun i _ => overlays_eq_lastStored _ _ _

end

/-- **Guest RAM is a bounds-checked byte array.**  After any run of calls on fresh RAM,
any call is served exactly when it ends inside the buffer and is rejected otherwise; a
rejected call changes nothing, a served write its own bytes, and a served read nothing;
what is read is, byte by byte, what was last written there, 0 if nothing was; and a value
whose bytes were written last reads back, whatever writes they came from.  RAM that `new`
returns is fresh in this sense. -/
theorem byte_array (size : UInt64) (calls : List (Σ α, Call α)) :
    let ram := Run.final step (zeroed size) calls
    let byte := fun a => (lastStored a (served size.toNat calls)).getD 0
    (∀ (α : Type) (c : Call α),
      ((∃ a, (c.act.run ram).1 = .ok a) ↔ c.gpa.toNat + c.len ≤ size.toNat) ∧
      ((∃ e, (c.act.run ram).1 = .err e) ↔ ¬ c.gpa.toNat + c.len ≤ size.toNat) ∧
      (∀ e, (c.act.run ram).1 = .err e → (c.act.run ram).2 = ram) ∧
      (∀ a, (c.act.run ram).1 = .ok a →
        (c.data = none → (c.act.run ram).2 = ram) ∧
        ∀ data, c.data = some data →
          window (c.act.run ram).2.mem c.gpa.toNat c.len = data ∧
          ∀ b, b < c.gpa.toNat ∨ c.gpa.toNat + c.len ≤ b →
            (c.act.run ram).2.mem b = ram.mem b)) ∧
    (∀ gpa n bs, ((Call.readSlice gpa n).act.run ram).1 = .ok bs →
      bs = (List.range n).map fun i => byte (gpa.toNat + i)) ∧
    (∀ (T : Type) [Pod T] gpa v, ((Call.readObj gpa : Call T).act.run ram).1 = .ok v →
      v = Pod.ofBytes ((List.range (Pod.size T)).map fun i => byte (gpa.toNat + i))) ∧
    (∀ (T : Type) [Pod T] (gpa : UInt64) (v : T), gpa.toNat + Pod.size T ≤ size.toNat →
      ((List.range (Pod.size T)).map fun i => byte (gpa.toNat + i)) = Pod.toBytes v →
        ((Call.readObj gpa : Call T).act.run ram).1 = .ok v) ∧
    ∀ alloc sizeMib fresh, GuestRam.new alloc sizeMib = .ok fresh → ∃ n, fresh = zeroed n := by
  intro ram byte
  have hsize : ram.size = size.toNat := by
    show (Run.final step (zeroed size) calls).size = _
    rw [final_step]
    rfl
  refine ⟨fun α c => ?_, fun gpa n bs h => ?_, fun T _ gpa v h => ?_,
    fun T _ gpa v hin hbytes => ?_, fun _ _ _ => zeroed_of_new⟩
  · rw [← hsize]
    exact act_checked ram c
  · have hread : ram.readSlice gpa.toNat n = .ok bs := h
    rw [(readSlice_eq_ok.mp hread).2]
    exact window_final size calls gpa.toNat n
  · have hread : ram.readObj gpa.toNat = .ok v := h
    rw [(readObj_eq_ok.mp hread).2]
    exact congrArg Pod.ofBytes (window_final size calls gpa.toNat (Pod.size T))
  · show ram.readObj gpa.toNat = .ok v
    refine readObj_eq_ok.mpr ⟨by rw [hsize]; exact hin, ?_⟩
    have hwindow : window ram.mem gpa.toNat (Pod.size T) = Pod.toBytes v :=
      (window_final size calls gpa.toNat (Pod.size T)).trans hbytes
    rw [hwindow, Pod.ofBytes_toBytes]

/-- A value assembled from writes that overlap it and each other; the last one is rejected. -/
example : ((Call.readObj 1 : Call UInt32).act.run (Run.final step (zeroed 8)
    [⟨Unit, .writeObj 0 (0x1122334455667788 : UInt64)⟩, ⟨Unit, .writeObj 2 (0xaabb : UInt16)⟩,
      ⟨Unit, .writeSlice 3 [0xcc]⟩, ⟨Unit, .writeObj 6 (0 : UInt32)⟩])).1 =
    .ok 0x44ccbb77 := by decide

end GuestRam
end HyperPod
