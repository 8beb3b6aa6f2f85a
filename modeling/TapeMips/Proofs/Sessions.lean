import TapeMips.Machine.History
import TapeMips.Proofs.Advances

/-!
# What a session keeps

Iterations of one session take turns on its machine in any order, and between
their turns the machine may be reset or asked for another size. Two things about
the machine have to be carried along: the memory in place is as large as the size
in force, and what has been printed consists of bytes (`Sound`).

A reset establishes both, and no change that an instruction makes loses either:
it writes a cell only where there is one, and it prints what is left of a register
modulo 256. As advances are the only other way to touch memory and output, every
request keeps the machine sound for the size that is in force after it
(`Sound.perform`), and so does every history.

The size asked for is not part of the invariant. Between a change of size and the
next reset it may lie on either side of the memory in place, and that is when an
address can pass the check and still find no cell (`beyond_iff`).
-/

namespace TapeMips.Machine

open Asm

structure Sound (inForce : Int) (m : Machine) : Prop where
  size : (m.state.memory.size : Int) = inForce
  output : ∀ c ∈ m.state.output.toList, c.toNat < 256

theorem Sound.change {inForce : Int} {m : Machine} (h : Sound inForce m) {ch : Change}
    (hch : ∀ c, ch = .print c → c.toNat < 256) : Sound inForce (m.change ch) := by
  cases ch with
  | none => exact h
  | register r value => exact ⟨h.size, h.output⟩
  | cell a value =>
      refine ⟨?_, h.output⟩
      rw [← h.size]
      exact congrArg Int.ofNat Array.size_setIfInBounds
  | print c =>
      refine ⟨h.size, fun x hx => ?_⟩
      simp only [Machine.change, State.apply, String.toList_push, List.mem_append,
        List.mem_singleton] at hx
      rcases hx with hx | rfl
      · exact h.output x hx
      · exact hch x rfl

theorem toNat_ofNat_byte (b : UInt8) : (Char.ofNat b.toNat).toNat < 256 := by
  have hlt := b.toNat_lt
  have hvalid : b.toNat.isValidChar := Or.inl (by omega)
  rw [Char.ofNat, dif_pos hvalid]
  exact hlt

theorem Performs.print_lt {size : Int} {p : Program} {pc : Nat} {i : Instruction}
    {input : List Int} {s : State} {e : Effect} (h : Performs size p pc i input s e)
    {c : Char} (hc : e.change = .print c) : c.toNat < 256 := by
  cases h with
  | print _ _ =>
      cases hc
      exact toNat_ofNat_byte _
  | add => cases hc
  | constant => cases hc
  | load => cases hc
  | store => cases hc
  | jump => cases hc
  | pass => cases hc
  | exit => cases hc
  | read => cases hc

theorem Sound.advance {inForce : Int} {m : Machine} (h : Sound inForce m)
    (c : Cursor) : Sound inForce (c.advance m).machine := by
  have hadvance := advances c m
  generalize c.advance m = a at hadvance
  cases hadvance with
  | finished => exact h
  | spent => exact h
  | fault => exact h
  | exit _ _ heffect =>
      exact h.change fun c hc => (performs_of_effect heffect).print_lt hc
  | goto _ _ heffect =>
      exact h.change fun c hc => (performs_of_effect heffect).print_lt hc

theorem Sound.renewed {m : Machine} (hpos : 0 ≤ m.memorySize) :
    Sound m.memorySize m.renewed := by
  refine ⟨?_, fun c hc => ?_⟩
  · show ((Array.replicate m.memorySize.toNat (0 : UInt8)).size : Int) = _
    rw [Array.size_replicate]
    omega
  · have hempty : c ∈ ([] : List Char) := hc
    cases hempty

section Requests

variable {s : Session}

theorem reset_of_refused {e : SizeError}
    (h : sizeError? s.machine.memorySize = some e) : s.reset = .error e := by
  rw [Session.reset, reset, h]
  rfl

theorem reset_of_granted (h : sizeError? s.machine.memorySize = none) :
    s.reset = .ok { s with machine := s.machine.renewed } := by
  rw [Session.reset, reset, h]
  rfl

theorem advance_of_lookup {name : String} {it : Iteration}
    (h : s.iterations.lookup name = some it) {n : Nat} {p : Progress}
    (hp : it.advanceBy (n + 1) s.machine = p) :
    s.advance name (n + 1) =
      .ok (p.snapshots, p.stop,
        { s with machine := p.machine }.bind name p.iteration) := by
  rw [Session.advance, if_neg (Nat.succ_ne_zero n), Session.find, h, ← hp]
  rfl

theorem advance_of_unknown {name : String} (h : s.iterations.lookup name = none)
    (n : Nat) : s.advance name (n + 1) = .error ⟨name⟩ := by
  rw [Session.advance, if_neg (Nat.succ_ne_zero n), Session.find, h]
  rfl

theorem close_of_lookup {name : String} {it : Iteration}
    (h : s.iterations.lookup name = some it) :
    s.close name = .ok (s.bind name .over) := by
  rw [Session.close, Session.find, h]
  rfl

theorem close_of_unknown {name : String} (h : s.iterations.lookup name = none) :
    s.close name = .error ⟨name⟩ := by
  rw [Session.close, Session.find, h]
  rfl

theorem machine_close (name : String) :
    (s.perform (.close name)).machine = s.machine := by
  cases h : s.iterations.lookup name with
  | none => rw [Session.perform, close_of_unknown h]
  | some it =>
      rw [Session.perform, close_of_lookup h]
      rfl

/-- The machine after a run or an iteration that begins: a reset that is granted
puts the size asked for in force, and one that is refused leaves the machine
alone. -/
theorem Sound.begin {inForce : Int} (h : Sound inForce s.machine) (job : Job) :
    Sound (if (sizeError? s.machine.memorySize).isNone then s.machine.memorySize
      else inForce) (job.begin s.machine).1 := by
  cases hsize : sizeError? s.machine.memorySize with
  | none =>
      rw [begin_of_granted hsize]
      exact Sound.renewed (nonneg_of_sizeError? hsize)
  | some e =>
      rw [begin_of_refused hsize]
      exact h

theorem Sound.perform_advance {inForce : Int} (h : Sound inForce s.machine)
    (name : String) (count : Nat) :
    Sound (if s.resets (.advance name count) then s.machine.memorySize else inForce)
      (s.perform (.advance name count)).machine := by
  cases count with
  | zero =>
      rw [if_neg (by simp [Session.resets])]
      exact h
  | succ n =>
      cases hlookup : s.iterations.lookup name with
      | none =>
          rw [if_neg (by simp [Session.resets, Session.isWaiting, hlookup]),
            Session.perform, advance_of_unknown hlookup]
          exact h
      | some it =>
          rw [Session.perform, advance_of_lookup hlookup rfl]
          show Sound _ (it.advanceBy (n + 1) s.machine).machine
          cases it with
          | waiting job =>
              have hresets : s.resets (.advance name (n + 1)) =
                  (sizeError? s.machine.memorySize).isNone := by
                simp [Session.resets, Session.isWaiting, hlookup]
              rw [hresets]
              exact keeps_waiting (fun c m hm => hm.advance c) (h.begin job) n
          | running c =>
              have hbegun : (Iteration.running c).HasBegun := trivial
              rw [if_neg (by simp [Session.resets, Session.isWaiting, hlookup])]
              exact keeps_advanceBy (fun c m hm => hm.advance c) hbegun h (n + 1)
          | «over» =>
              rw [if_neg (by simp [Session.resets, Session.isWaiting, hlookup])]
              exact h

theorem Sound.perform {inForce : Int} (h : Sound inForce s.machine)
    (request : Request) :
    Sound (if s.resets request then s.machine.memorySize else inForce)
      (s.perform request).machine := by
  cases request with
  | resize size =>
      rw [if_neg (by simp [Session.resets])]
      exact ⟨h.size, h.output⟩
  | start name job =>
      rw [if_neg (by simp [Session.resets])]
      exact h
  | close name =>
      rw [if_neg (by simp [Session.resets]), machine_close]
      exact h
  | advance name count => exact h.perform_advance name count
  | reset =>
      rw [Session.resets, Bool.and_true]
      cases hsize : sizeError? s.machine.memorySize with
      | none =>
          rw [Session.perform, reset_of_granted hsize]
          exact Sound.renewed (nonneg_of_sizeError? hsize)
      | some e =>
          rw [Session.perform, reset_of_refused hsize]
          exact h
  | run job traced advances =>
      cases advances with
      | zero =>
          rw [if_neg (by simp [Session.resets])]
          exact h
      | succ n =>
          have hresets : s.resets (.run job traced (n + 1)) =
              (sizeError? s.machine.memorySize).isNone := by
            simp [Session.resets]
          rw [hresets]
          exact keeps_start (fun c m hm => hm.advance c) (h.begin job) traced n

/-- What a whole history keeps. -/
theorem Sound.performAll {inForce : Int} (h : Sound inForce s.machine)
    (history : List Request) :
    Sound (s.sizeInForce inForce history) (s.performAll history).machine := by
  induction history generalizing s inForce with
  | nil => exact h
  | cons request rest ih => exact ih (h.perform request)

theorem lookup_bind_self (name : String) (it : Iteration) :
    (s.bind name it).iterations.lookup name = some it := by
  simp [Session.bind]

theorem lookup_bind_other {name other : String} (h : other ≠ name) (it : Iteration) :
    (s.bind name it).iterations.lookup other = s.iterations.lookup other := by
  rw [Session.bind]
  exact Entries.lookup_bind_ne s.iterations h it

/-- A request about one iteration leaves the others where they stand. -/
theorem lookup_perform_other {request : Request} {other : String}
    (h : request.iteration? ≠ some other) :
    (s.perform request).iterations.lookup other = s.iterations.lookup other := by
  cases request with
  | run job traced advances => rfl
  | resize size => rfl
  | reset =>
      cases hsize : sizeError? s.machine.memorySize with
      | none => rw [Session.perform, reset_of_granted hsize]
      | some e => rw [Session.perform, reset_of_refused hsize]
  | start name job =>
      have hne : other ≠ name := fun heq => h (congrArg some heq.symm)
      exact lookup_bind_other hne _
  | close name =>
      have hne : other ≠ name := fun heq => h (congrArg some heq.symm)
      cases hlookup : s.iterations.lookup name with
      | none => rw [Session.perform, close_of_unknown hlookup]
      | some it =>
          rw [Session.perform, close_of_lookup hlookup]
          exact lookup_bind_other hne _
  | advance name count =>
      have hne : other ≠ name := fun heq => h (congrArg some heq.symm)
      cases count with
      | zero => rfl
      | succ n =>
          cases hlookup : s.iterations.lookup name with
          | none => rw [Session.perform, advance_of_unknown hlookup]
          | some it =>
              rw [Session.perform, advance_of_lookup hlookup rfl]
              exact lookup_bind_other hne _

end Requests

theorem over_of_not_snapshot {it : Iteration} {m : Machine}
    (h : ∀ s, (it.advance m).turn ≠ .snapshot s) :
    (it.advance m).iteration = .over := by
  have hcursor : ∀ (c : Cursor) (m : Machine),
      (∀ s, (c.advance m).turn ≠ .snapshot s) →
        (c.advance m).iteration = .over := by
    intro c m hturn
    have hadvance := advances c m
    generalize c.advance m = a at hadvance hturn
    cases hadvance with
    | finished => rfl
    | spent => rfl
    | fault => rfl
    | exit => rfl
    | goto => exact absurd rfl (hturn _)
  cases it with
  | «over» => rfl
  | running c => exact hcursor c m h
  | waiting job =>
      rcases advance_waiting_cases job m with ⟨e, hfirst⟩ | ⟨c, hfirst⟩
      · rw [hfirst]
      · rw [hfirst] at h ⊢
        exact hcursor c _ h

theorem over_of_stopped {it : Iteration} {m : Machine} {n : Nat}
    (h : (it.advanceBy n m).stop ≠ .paused) :
    (it.advanceBy n m).iteration = .over := by
  induction n generalizing it m with
  | zero => exact absurd rfl h
  | succ n ih =>
      rw [Iteration.advanceBy] at h ⊢
      dsimp only at h ⊢
      cases hturn : (it.advance m).turn with
      | exhausted => exact over_of_not_snapshot fun s => by simp [hturn]
      | failed e => exact over_of_not_snapshot fun s => by simp [hturn]
      | snapshot s =>
          rw [hturn] at h
          exact ih h

/-! ## Cells that are not there

Between a resize and the next run the size is ahead of the memory. A load or
store in that gap passes the bounds check and misses its cell, and nothing
else does. -/

/-- The address that a memory operand stands for, wherever it lies. -/
def Addresses (s : State) (place : String) (a : Int) : Prop :=
  ∃ o offset base, MemoryOperand.ofText? place = some o ∧ o.offset = .ok offset ∧
    Register.ofName? o.base = some base ∧ a = offset + s.registers.read base

theorem eq_beyondMemory_of_kind {f : Fault} (h : f.kind = .beyondMemory) :
    ∃ a, f = .beyondMemory a := by
  cases f with
  | beyondMemory a => exact ⟨a, rfl⟩
  | offsetTooLong digits => cases h
  | program cause line =>
      rw [Fault.kind] at h
      split at h <;> cases h

section Beyond

variable {size : Int} {p : Program} {pc : Nat} {i : Instruction} {input : List Int}
  {s : State}

theorem effect_beyond {name place : String} {r : Register} {a : Nat}
    (hmnemonic : i.mnemonic = "lbu" ∨ i.mnemonic = "sb")
    (hoperands : i.operands = [name, place]) (hr : Register.ofName? name = some r)
    (haddress : address size s i place = .ok a) (hsize : s.memory.size ≤ a) :
    effect size p pc i input s = .error (.beyondMemory a) := by
  rcases hmnemonic with hmnemonic | hmnemonic
  · have hload : loadByte size s i = .error (.beyondMemory a) := by
      simp only [loadByte, hoperands, haddress, bind, Except.bind,
        Array.getElem?_eq_none_iff.mpr hsize]
      rfl
    simp only [effect, hmnemonic, hload]
    rfl
  · have hstore : storeByte size s i = .error (.beyondMemory a) := by
      simp only [storeByte, hoperands, haddress, register_of_ofName? hr,
        bind, Except.bind, Nat.not_lt_of_le hsize]
      rfl
    simp only [effect, hmnemonic, hstore]
    rfl

/-- A memory instruction with proper operands misses its cell exactly if its
address lies between the memory in place and the size asked for. -/
theorem beyond_iff {name place : String} {r : Register} {a : Int}
    (hmnemonic : i.mnemonic = "lbu" ∨ i.mnemonic = "sb")
    (hoperands : i.operands = [name, place]) (hr : Register.ofName? name = some r)
    (ha : Addresses s place a) :
    (∃ f, effect size p pc i input s = .error f ∧ f.kind = .beyondMemory) ↔
      (s.memory.size : Int) ≤ a ∧ a < size := by
  obtain ⟨o, offset, base, ho, hoffset, hbase, rfl⟩ := ha
  have haddress : address size s i place = _ := address_eq ho hoffset hbase
  generalize offset + s.registers.read base = a at haddress
  constructor
  · rintro ⟨f, heffect, hkind⟩
    obtain ⟨b, rfl⟩ := eq_beyondMemory_of_kind hkind
    cases refuses_of_effect heffect with
    | beyond _ hoperands' hb hle =>
        rw [hoperands, List.cons.injEq, List.cons.injEq] at hoperands'
        rw [← hoperands'.2.1, haddress] at hb
        split at hb
        · next hrange =>
            simp only [Bool.and_eq_true, decide_eq_true_eq] at hrange
            cases hb
            omega
        · cases hb
  · rintro ⟨hle, hlt⟩
    rw [if_pos (by simp only [Bool.and_eq_true, decide_eq_true_eq]; omega)] at haddress
    exact ⟨_, effect_beyond hmnemonic hoperands hr haddress (by omega), rfl⟩

theorem kind_ne_beyondMemory {f : Fault} (hsize : size ≤ s.memory.size)
    (h : effect size p pc i input s = .error f) : f.kind ≠ .beyondMemory := by
  intro hkind
  obtain ⟨a, rfl⟩ := eq_beyondMemory_of_kind hkind
  cases refuses_of_effect h with
  | beyond _ _ haddress hle =>
      have hlt := address_lt haddress
      omega

end Beyond

/-- The registers as they go by their names. -/
def Registers.table (r : Registers) : List (String × Int) :=
  Register.names.map fun (name, reg) => (name, r.read reg)

/-- Whatever would reset the machine of the session fails for this reason and
leaves the machine as it is. -/
structure TurnsDown (e : SizeError) (s : Session) : Prop where
  reset : s.reset = .error e ∧ (s.perform .reset).machine = s.machine
  run : ∀ job traced n,
    ((Run.start job s.machine traced).carryOn (n + 1)).outcome =
      some (.error (.size e)) ∧
      (s.perform (.run job traced (n + 1))).machine = s.machine
  advance : ∀ name job n, s.iterations.lookup name = some (.waiting job) →
    ∃ s', s.advance name (n + 1) = .ok ([], .failed (.size e), s') ∧
      s'.machine = s.machine

/-- What holds of a session at every point, where this size is in force. -/
structure WellKept (inForce : Int) (s : Session) : Prop where
  register_names : s.machine.state.registers.table.map (·.1) =
    ["$0", "$zero", "$sp", "$s0", "$a0", "$v0"]
  zero_registers : ∀ name ∈ ["$0", "$zero"],
    s.machine.state.registers.table.lookup name = some 0
  memory_size : (s.machine.state.memory.size : Int) = inForce
  cells : ∀ cell ∈ s.machine.state.memory.toList, cell.toNat ≤ 255
  output : ∀ c ∈ s.machine.state.output.toList, c.toNat < 256
  /-- A negative size cannot be had. That it is negative is said unless it is no
  index at all. -/
  negative : s.machine.memorySize < 0 → ∃ e, sizeError? s.machine.memorySize = some e ∧
    (Numeral.isIndex s.machine.memorySize = true → e = .negative)
  refused : ∀ e, sizeError? s.machine.memorySize = some e → TurnsDown e s
  started : ∀ name job, (s.perform (.start name job)).machine = s.machine
  closed : ∀ name, (s.perform (.close name)).machine = s.machine ∧
    ((s.iterations.lookup name).isSome = true →
      (s.perform (.close name)).iterations.lookup name = some .over)
  stopped : ∀ name n snapshots stop s', s.advance name n = .ok (snapshots, stop, s') →
    stop ≠ .paused → s'.iterations.lookup name = some .over
  finished : ∀ name n, s.iterations.lookup name = some .over →
    ∃ s', s.advance name (n + 1) = .ok ([], .exhausted, s') ∧ s'.machine = s.machine ∧
      s'.iterations.lookup name = some .over
  others : ∀ request other, request.iteration? ≠ some other →
    (s.perform request).iterations.lookup other = s.iterations.lookup other
  beyond : ∀ p pc i input name r place a, i.mnemonic = "lbu" ∨ i.mnemonic = "sb" →
    i.operands = [name, place] → Register.ofName? name = some r →
    Addresses s.machine.state place a →
    ((∃ f, effect s.machine.memorySize p pc i input s.machine.state = .error f ∧
        f.kind = .beyondMemory) ↔
      (s.machine.state.memory.size : Int) ≤ a ∧ a < s.machine.memorySize)
  within : s.machine.memorySize ≤ inForce → ∀ p pc i input f,
    effect s.machine.memorySize p pc i input s.machine.state = .error f →
      f.kind ≠ .beyondMemory

theorem turnsDown {s : Session} {e : SizeError}
    (h : sizeError? s.machine.memorySize = some e) : TurnsDown e s where
  reset := by
    rw [Session.perform, reset_of_refused h]
    exact ⟨rfl, rfl⟩
  run := by
    intro job traced n
    have hrun : (Run.start job s.machine traced).carryOn (n + 1) =
        { iteration := .over, machine := s.machine, traced,
          outcome := some (.error (.size e)) } := by
      rw [Run.carryOn_succ, Run.start, Run.step]
      simp only [begin_of_refused h]
      exact Run.carryOn_of_isSome rfl n
    rw [Session.perform, hrun]
    exact ⟨rfl, rfl⟩
  advance := by
    intro name job n hlookup
    exact ⟨_, advance_of_lookup hlookup
      (advanceBy_of_refused (begin_of_refused h job) n), rfl⟩

theorem sizeError?_of_negative {size : Int} (h : size < 0) :
    ∃ e, sizeError? size = some e ∧ (Numeral.isIndex size = true → e = .negative) := by
  cases hindex : Numeral.isIndex size with
  | true => exact ⟨.negative, by simp [sizeError?, hindex, h], fun _ => rfl⟩
  | false =>
      exact ⟨.notIndex,
        by simp [sizeError?, hindex], fun h => absurd h Bool.false_ne_true⟩

theorem Sound.wellKept {inForce : Int} {s : Session} (h : Sound inForce s.machine) :
    WellKept inForce s where
  register_names := rfl
  zero_registers := by
    intro name hname
    simp only [List.mem_cons, List.not_mem_nil, or_false] at hname
    rcases hname with rfl | rfl <;> rfl
  memory_size := h.size
  cells := fun cell _ => Nat.le_of_lt_succ cell.toNat_lt
  output := h.output
  negative := sizeError?_of_negative
  refused := fun _ => turnsDown
  started := fun _ _ => rfl
  closed := by
    refine fun name => ⟨machine_close name, fun hsome => ?_⟩
    obtain ⟨it, hlookup⟩ := Option.isSome_iff_exists.mp hsome
    rw [Session.perform, close_of_lookup hlookup]
    exact lookup_bind_self name .over
  stopped := by
    intro name n snapshots stop s' hadvance hstop
    cases n with
    | zero =>
        cases hadvance
        exact absurd rfl hstop
    | succ n =>
        cases hlookup : s.iterations.lookup name with
        | none =>
            rw [advance_of_unknown hlookup] at hadvance
            cases hadvance
        | some it =>
            rw [advance_of_lookup hlookup rfl] at hadvance
            cases hadvance
            rw [lookup_bind_self, over_of_stopped hstop]
  finished := by
    intro name n hlookup
    exact ⟨_, advance_of_lookup hlookup (advanceBy_over n s.machine), rfl,
      lookup_bind_self _ _⟩
  others := fun _ _ => lookup_perform_other
  beyond := fun _ _ _ _ _ _ _ _ => beyond_iff
  within := fun hle _ _ _ _ _ => kind_ne_beyondMemory (by rw [h.size]; exact hle)

/-- Whatever is asked of a session on a new machine, it is well kept afterwards,
with the size that the last reset that succeeded has put in force. -/
theorem performAll_wellKept {size : Int} {s : Session}
    (hnew : Session.new size = .ok s) (history : List Request) :
    WellKept (s.sizeInForce size history) (s.performAll history) := by
  obtain ⟨m, hm, rfl⟩ := map_eq_ok hnew
  obtain ⟨hpos, rfl, -⟩ := new_eq_ok hm
  have hsound : Sound size { memorySize := size, state := State.fresh size.toNat } :=
    Sound.renewed (m := { memorySize := size }) hpos
  exact (hsound.performAll history).wellKept

/-- A reset that is refused, and an iteration that puts a larger size in force. -/
theorem performAll_wellKept_resized :
    let history : List Request :=
      [.resize (-1), .reset, .start "print" ⟨"syscall", [], none⟩, .resize 5,
        .advance "print" 3]
    ∃ s, Session.new 2 = .ok s ∧ s.sizeInForce 2 history = 5 ∧
      WellKept (s.sizeInForce 2 history) (s.performAll history) := by
  intro history
  have hnew : Session.new 2 =
      .ok { machine := { memorySize := 2, state := State.fresh 2 } } := rfl
  exact ⟨_, hnew, rfl, performAll_wellKept hnew history⟩

end TapeMips.Machine
