import HyperPod.Lib.Outcome
import HyperPod.Lib.Overlay

/-!
# Guest RAM: `vmm/common/ram.rs`

`GuestRam` is a buffer of `size` bytes at guest-physical address 0; `usize` is 64 bits
wide.  An access is served exactly when it ends inside the buffer
(`run_writeSlice_eq_ok`, `readSlice_eq_ok`), and a rejected one changes nothing.
-/

namespace HyperPod

open Machine Bytes

structure GuestRam where
  size : Nat
  mem : Nat → UInt8
  size_lt : size < 2 ^ 64

/-- `{:#x}` -/
def hex (n : Nat) : String := "0x" ++ String.ofList (Nat.toDigits 16 n)

namespace GuestRam

def mib : Nat := 1024 * 1024

/-- `GuestRam::new`; `alloc` is the host's answer to a request for so many bytes, which
it hands out zeroed. -/
def new (alloc : Nat → Result Unit) (sizeMib : UInt64) : Result GuestRam :=
  if h : sizeMib.toNat * mib < 2 ^ 64 then do
    alloc (sizeMib.toNat * mib)
    return ⟨sizeMib.toNat * mib, fun _ => 0, h⟩
  else .err (.msg "guest memory size overflows usize")

def writeSlice (gpa : Nat) (data : List UInt8) : Act GuestRam Unit := do
  let ram ← Act.get
  let stop := gpa + data.length
  if stop ≥ 2 ^ 64 then Act.bail "write overflow"
  if stop > ram.size then
    Act.bail s!"write [{hex gpa}..{hex stop}) out of bounds (size {hex ram.size})"
  Act.set { ram with mem := overlay ram.mem gpa data }

def writeObj {T : Type} [Pod T] (gpa : Nat) (val : T) : Act GuestRam Unit :=
  writeSlice gpa (Pod.toBytes val)

def readSlice (ram : GuestRam) (gpa n : Nat) : Result (List UInt8) :=
  let stop := gpa + n
  if stop ≥ 2 ^ 64 then .err (.msg "read overflow")
  else if stop > ram.size then
    .err (.msg s!"read [{hex gpa}..{hex stop}) out of bounds (size {hex ram.size})")
  else .ok (window ram.mem gpa n)

def readObj {T : Type} [Pod T] (ram : GuestRam) (gpa : Nat) : Result T := do
  let buf ← ram.readSlice gpa (Pod.size T)
  return Pod.ofBytes buf

/-! ## When an access is served -/

variable {T : Type} [Pod T] {ram : GuestRam} {gpa n : Nat} {data : List UInt8}

theorem readSlice_eq_ok {bs : List UInt8} :
    ram.readSlice gpa n = .ok bs ↔ gpa + n ≤ ram.size ∧ bs = window ram.mem gpa n := by
  have hlt := ram.size_lt
  unfold readSlice
  by_cases h1 : gpa + n ≥ 2 ^ 64
  · simp only [if_pos h1]
    constructor
    · intro h
      cases h
    · rintro ⟨h, -⟩
      omega
  · by_cases h2 : gpa + n > ram.size
    · simp only [if_neg h1, if_pos h2]
      constructor
      · intro h
        cases h
      · rintro ⟨h, -⟩
        omega
    · simp only [if_neg h1, if_neg h2, Outcome.ok.injEq]
      constructor
      · rintro rfl
        exact ⟨by omega, rfl⟩
      · rintro ⟨-, rfl⟩
        rfl

theorem readSlice_ne_panic : ram.readSlice gpa n ≠ .panic := by
  unfold readSlice
  dsimp only
  split
  · simp
  · split <;> simp

theorem readObj_eq_ok {v : T} :
    ram.readObj gpa = .ok v ↔
      gpa + Pod.size T ≤ ram.size ∧ v = Pod.ofBytes (window ram.mem gpa (Pod.size T)) := by
  unfold readObj
  rw [Outcome.bind_eq_ok]
  constructor
  · rintro ⟨bs, hbs, hv⟩
    obtain ⟨hin, rfl⟩ := readSlice_eq_ok.mp hbs
    cases hv
    exact ⟨hin, rfl⟩
  · rintro ⟨hin, rfl⟩
    exact ⟨_, readSlice_eq_ok.mpr ⟨hin, rfl⟩, rfl⟩

theorem readObj_ne_panic : (ram.readObj gpa : Result T) ≠ .panic :=
  Outcome.bind_ne_panic readSlice_ne_panic fun _ _ => by simp

/-- A read that does not end inside the buffer is rejected. -/
theorem readSlice_outside (h : ¬ gpa + n ≤ ram.size) : ∃ e, ram.readSlice gpa n = .err e := by
  cases hr : ram.readSlice gpa n with
  | ok bs => exact absurd (readSlice_eq_ok.mp hr).1 h
  | err e => exact ⟨e, rfl⟩
  | panic => exact absurd hr readSlice_ne_panic

theorem readObj_outside (h : ¬ gpa + Pod.size T ≤ ram.size) :
    ∃ e, (ram.readObj gpa : Result T) = .err e := by
  cases hr : (ram.readObj gpa : Result T) with
  | ok v => exact absurd (readObj_eq_ok.mp hr).1 h
  | err e => exact ⟨e, rfl⟩
  | panic => exact absurd hr readObj_ne_panic

/-- The memory after a write. -/
def put (ram : GuestRam) (gpa : Nat) (data : List UInt8) : GuestRam :=
  { ram with mem := overlay ram.mem gpa data }

@[simp] theorem size_put : (ram.put gpa data).size = ram.size := rfl
@[simp] theorem mem_put : (ram.put gpa data).mem = overlay ram.mem gpa data := rfl

theorem run_writeSlice_inside (h : gpa + data.length ≤ ram.size) :
    (writeSlice gpa data).run ram = (.ok (), ram.put gpa data) := by
  have hlt := ram.size_lt
  have h1 : ¬ gpa + data.length ≥ 2 ^ 64 := by omega
  have h2 : ¬ gpa + data.length > ram.size := by omega
  unfold writeSlice
  simp only [Act.run_get_bind, if_neg h1, if_neg h2]
  rfl

theorem run_writeSlice_outside (h : ¬ gpa + data.length ≤ ram.size) :
    ∃ e, (writeSlice gpa data).run ram = (.err e, ram) := by
  unfold writeSlice
  by_cases h1 : gpa + data.length ≥ 2 ^ 64
  · simp only [Act.run_get_bind, if_pos h1, Act.run_bail_bind]
    exact ⟨_, rfl⟩
  · have h2 : gpa + data.length > ram.size := by omega
    simp only [Act.run_get_bind, if_neg h1, if_pos h2, Act.run_bail_bind]
    exact ⟨_, rfl⟩

/-- **One write.**  It is served exactly when it ends inside the buffer. -/
theorem run_writeSlice_eq_ok {ram' : GuestRam} :
    (writeSlice gpa data).run ram = (.ok (), ram') ↔
      gpa + data.length ≤ ram.size ∧ ram' = ram.put gpa data := by
  by_cases h : gpa + data.length ≤ ram.size
  · rw [run_writeSlice_inside h]
    constructor
    · intro heq
      cases heq
      exact ⟨h, rfl⟩
    · rintro ⟨-, rfl⟩
      rfl
  · obtain ⟨e, he⟩ := run_writeSlice_outside h
    rw [he]
    constructor
    · intro heq
      cases heq
    · rintro ⟨hin, -⟩
      exact absurd hin h

theorem run_writeObj_eq_ok {v : T} {ram' : GuestRam} :
    (writeObj gpa v).run ram = (.ok (), ram') ↔
      gpa + Pod.size T ≤ ram.size ∧ ram' = ram.put gpa (Pod.toBytes v) := by
  unfold writeObj
  rw [run_writeSlice_eq_ok, Pod.length_toBytes]

/-! ## Sequences of writes -/

/-- The memory after the writes `ws`. -/
def puts (ram : GuestRam) (ws : List (Patch UInt8)) : GuestRam :=
  { ram with mem := overlays ram.mem ws }

@[simp] theorem size_puts (ws : List (Patch UInt8)) : (ram.puts ws).size = ram.size := rfl
@[simp] theorem mem_puts (ws : List (Patch UInt8)) : (ram.puts ws).mem = overlays ram.mem ws := rfl

theorem puts_append (ws vs : List (Patch UInt8)) :
    ram.puts (ws ++ vs) = (ram.puts ws).puts vs := by
  unfold puts
  rw [overlays_append]

/-- Every write ends inside the buffer. -/
def Fits (ram : GuestRam) (ws : List (Patch UInt8)) : Prop :=
  ∀ w ∈ ws, w.1 + w.2.length ≤ ram.size

variable {α β : Type} {ws vs : List (Patch UInt8)}

/-- The call makes the writes `ws` and returns `a`; it is served exactly when they fit. -/
def Writes (x : Act GuestRam α) (ws : List (Patch UInt8)) (a : α) : Prop :=
  ∀ ram b ram', x.run ram = (.ok b, ram') ↔ ram.Fits ws ∧ b = a ∧ ram' = ram.puts ws

theorem writes_pure (a : α) : Writes (pure a) [] a := by
  intro ram b ram'
  rw [Act.run_pure]
  constructor
  · intro h
    cases h
    exact ⟨fun _ h => (nomatch h), rfl, rfl⟩
  · rintro ⟨-, rfl, rfl⟩
    rfl

theorem writes_writeSlice (gpa : Nat) (data : List UInt8) :
    Writes (writeSlice gpa data) [(gpa, data)] () := by
  intro ram b ram'
  rw [run_writeSlice_eq_ok]
  constructor
  · rintro ⟨h, rfl⟩
    exact ⟨fun w hw => by rw [List.mem_singleton.mp hw]; exact h, rfl, rfl⟩
  · rintro ⟨h, -, rfl⟩
    exact ⟨h _ (List.mem_singleton.mpr rfl), rfl⟩

theorem writes_writeObj (gpa : Nat) (v : T) :
    Writes (writeObj gpa v) [(gpa, Pod.toBytes v)] () :=
  writes_writeSlice gpa (Pod.toBytes v)

theorem Writes.bind {x : Act GuestRam α} {f : α → Act GuestRam β} {a : α} {b : β}
    (hx : Writes x ws a) (hf : Writes (f a) vs b) : Writes (x >>= f) (ws ++ vs) b := by
  intro ram c ram'
  rw [Act.run_bind_eq_ok]
  constructor
  · rintro ⟨a', ram₁, h1, h2⟩
    obtain ⟨hws, rfl, rfl⟩ := (hx ram a' ram₁).mp h1
    obtain ⟨hvs, rfl, rfl⟩ := (hf _ c ram').mp h2
    refine ⟨fun w hw => ?_, rfl, (puts_append ws vs).symm⟩
    rcases List.mem_append.mp hw with hw | hw
    · exact hws w hw
    · exact hvs w hw
  · rintro ⟨hall, rfl, rfl⟩
    refine ⟨a, ram.puts ws, (hx ram a _).mpr ⟨?_, rfl, rfl⟩,
      (hf _ c _).mpr ⟨?_, rfl, puts_append ws vs⟩⟩
    · exact fun w hw => hall w (List.mem_append_left _ hw)
    · exact fun w hw => hall w (List.mem_append_right _ hw)

/-- A computation before the writes. -/
theorem Writes.lift_bind {r : Result α} {f : α → Act GuestRam β} {a : α} {b : β} (h : r = .ok a)
    (hf : Writes (f a) vs b) : Writes (Act.lift r >>= f) vs b := by
  subst h
  exact hf

/-- What one of several writes that are apart stored reads back. -/
theorem readSlice_puts (hapart : ws.Pairwise Apart) (hfits : ram.Fits ws)
    (hw : (gpa, data) ∈ ws) : (ram.puts ws).readSlice gpa data.length = .ok data :=
  readSlice_eq_ok.mpr ⟨hfits _ hw, (window_overlays hapart hw).symm⟩

theorem readObj_puts {v : T} (hapart : ws.Pairwise Apart) (hfits : ram.Fits ws)
    (hw : (gpa, Pod.toBytes v) ∈ ws) : (ram.puts ws).readObj gpa = .ok v := by
  have hin := hfits _ hw
  have hback := window_overlays (m := ram.mem) hapart hw
  rw [Pod.length_toBytes] at hin hback
  refine readObj_eq_ok.mpr ⟨hin, ?_⟩
  rw [mem_puts, hback, Pod.ofBytes_toBytes]

end GuestRam
end HyperPod
