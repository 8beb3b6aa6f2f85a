import TapeMips.Codegen.Layout
import TapeMips.Proofs.Assemble
import TapeMips.Proofs.Moves
import TapeMips.Proofs.TapeRun

/-!
# What the blocks do

The tape is kept in memory and the pointer in `$sp`; that is all that is left of
a tape once the registers used on the way are forgotten (`Shows`). Each
instruction that occurs in a block is carried out symbolically, on any machine
that shows a tape, and each changes what is shown in a way that the tape knows.

A block is then as many moves as it has instructions, and it shows the tape
after its command (`moves_block`). Where the command fails for want of a cell,
so does one of the instructions, and the tape is shown as it was before: what
comes before a fault in a block touches other registers and the input only
(`breaks_block`). The two blocks of a loop differ in which value of the cell
sends them to their label, so one lemma serves both (`moves_test`).
-/

namespace TapeMips.Machine

open Asm Codegen

/-- The machine shows a tape: its cells, its pointer and its output. -/
structure Shows (s : Tape.State) (m : Machine) : Prop where
  size : m.memorySize = s.cells.size
  memory : m.state.memory = s.cells
  pointer : m.state.registers.sp = s.pointer
  output : m.state.output = s.output

theorem Shows.register {s : Tape.State} {m : Machine} (h : Shows s m) {r : Register}
    (hr : r ≠ .sp) (value : Int) : Shows s (m.change (.register r value)) where
  size := h.size
  memory := h.memory
  pointer := by
    rw [← h.pointer]
    cases r with
    | sp => exact absurd rfl hr
    | zero => rfl
    | s0 => rfl
    | a0 => rfl
    | v0 => rfl
  output := h.output

theorem Shows.move {s : Tape.State} {m : Machine} (h : Shows s m) (pointer : Int) :
    Shows { s with pointer } (m.change (.register .sp pointer)) :=
  ⟨h.size, h.memory, rfl, h.output⟩

theorem Shows.put {s : Tape.State} {m : Machine} (h : Shows s m) (i : Nat)
    (cell : UInt8) : Shows (s.put i cell) (m.change (.cell i cell)) where
  size := by simpa [Tape.State.put, change] using h.size
  memory := by simp [Tape.State.put, change, State.apply, h.memory]
  pointer := h.pointer
  output := h.output

theorem Shows.print {s : Tape.State} {m : Machine} (h : Shows s m) (c : Char) :
    Shows { s with output := s.output.push c } (m.change (.print c)) where
  size := h.size
  memory := h.memory
  pointer := h.pointer
  output := by simp [change, State.apply, h.output]

/-- A machine shows nothing of the input that a tape has left. -/
theorem Shows.input {s : Tape.State} {m : Machine} (h : Shows s m) (input : List Int) :
    Shows { s with input } m :=
  ⟨h.size, h.memory, h.pointer, h.output⟩

theorem byteOf_natCast (cell : UInt8) : byteOf (cell.toNat : Int) = cell := by
  have hlt := cell.toNat_lt
  have hmod : ((cell.toNat : Int) % 256).toNat = cell.toNat := by omega
  rw [byteOf, hmod, UInt8.ofNat_toNat]

theorem byteOf_succ (cell : UInt8) : byteOf ((cell.toNat : Int) + 1) = cell + 1 := by
  have hmod : (((cell.toNat : Int) + 1) % 256).toNat = (cell.toNat + 1) % 256 := by
    omega
  rw [byteOf, hmod]
  exact UInt8.toNat_inj.mp (by simp [UInt8.toNat_add])

theorem byteOf_pred (cell : UInt8) : byteOf ((cell.toNat : Int) - 1) = cell - 1 := by
  have hmod : (((cell.toNat : Int) - 1) % 256).toNat =
      (256 - 1 + cell.toNat) % 256 := by omega
  rw [byteOf, hmod]
  exact UInt8.toNat_inj.mp (by simp [UInt8.toNat_sub])

theorem address_cell (size : Int) (s : State) (i : Instruction) :
    address size s i "0($sp)" =
      if 0 ≤ s.registers.sp && s.registers.sp < size then .ok s.registers.sp.toNat
      else .error (.program (.outOfRange s.registers.sp) i.line) := by
  have htext : MemoryOperand.ofText? "0($sp)" = some ⟨false, ['0'], "$sp"⟩ := by
    decide +kernel
  have hoffset : MemoryOperand.offset ⟨false, ['0'], "$sp"⟩ = .ok 0 := rfl
  have hbase : register i "$sp" = .ok .sp := rfl
  rw [address, htext]
  simp only [hoffset, hbase, bind, Except.bind, Registers.read, Int.zero_add]
  rfl

theorem address_of_index? {s : Tape.State} {m : Machine} (h : Shows s m) {i : Nat}
    (hindex : s.index? = some i) (ins : Instruction) :
    address m.memorySize m.state ins "0($sp)" = .ok i := by
  obtain ⟨hpos, hlt, rfl⟩ := Tape.State.index?_eq_some hindex
  rw [address_cell, h.pointer, h.size, if_pos (by simp [hpos, hlt])]

theorem address_of_none {s : Tape.State} {m : Machine} (h : Shows s m)
    (hindex : s.index? = none) (ins : Instruction) :
    address m.memorySize m.state ins "0($sp)" =
      .error (.program (.outOfRange s.pointer) ins.line) := by
  have hrange : ¬ (0 ≤ s.pointer && s.pointer < s.cells.size) = true := by
    intro hrange
    rw [Tape.State.index?, if_pos hrange] at hindex
    cases hindex
  rw [address_cell, h.pointer, h.size, if_neg hrange]

section Effects

variable {s : Tape.State} {m : Machine} {p : Program} {pc line : Nat}
  {input : List Int}

theorem effect_load (h : Shows s m) {cell : UInt8} (hcell : s.cell? = some cell)
    {name : String} {r : Register} (hr : Register.ofName? name = some r) :
    effect m.memorySize p pc ⟨⟨"lbu", [name, "0($sp)"]⟩, line⟩ input m.state =
      .ok ⟨.register r cell.toNat, input, .goto (pc + 1)⟩ := by
  obtain ⟨i, hindex, hget⟩ := Tape.State.getElem?_of_cell? hcell
  simp [effect, loadByte, address_of_index? h hindex, h.memory, hget,
    register, hr, bind, Except.bind, pure, Except.pure, Except.map]

theorem effect_load_fault (h : Shows s m) (hcell : s.cell? = none) {name : String} :
    effect m.memorySize p pc ⟨⟨"lbu", [name, "0($sp)"]⟩, line⟩ input m.state =
      .error (.program (.outOfRange s.pointer) line) := by
  have hindex := (Tape.State.cell?_eq_none_iff s).mp hcell
  simp [effect, loadByte, address_of_none h hindex, bind, Except.bind, Except.map]

theorem effect_store (h : Shows s m) {i : Nat} (hindex : s.index? = some i)
    {name : String} {r : Register} (hr : Register.ofName? name = some r) :
    effect m.memorySize p pc ⟨⟨"sb", [name, "0($sp)"]⟩, line⟩ input m.state =
      .ok ⟨.cell i (byteOf (m.state.registers.read r)), input, .goto (pc + 1)⟩ := by
  have hsize : i < s.cells.size := by
    obtain ⟨hpos, hlt, rfl⟩ := Tape.State.index?_eq_some hindex
    omega
  simp [effect, storeByte, address_of_index? h hindex, h.memory, hsize,
    register, hr, bind, Except.bind, pure, Except.pure, Except.map]

theorem effect_store_fault (h : Shows s m) (hindex : s.index? = none) {name : String} :
    effect m.memorySize p pc ⟨⟨"sb", [name, "0($sp)"]⟩, line⟩ input m.state =
      .error (.program (.outOfRange s.pointer) line) := by
  simp [effect, storeByte, address_of_none h hindex, bind, Except.bind, Except.map]

theorem branch_cell (whenEqual : Bool) {state : State} {mnemonic label : String}
    {target : Nat} (hlabel : p.target? label = some target) :
    branch whenEqual p pc state ⟨⟨mnemonic, ["$s0", "$0", label]⟩, line⟩ =
      .ok (if (state.registers.s0 == 0) == whenEqual then target else pc + 1) := by
  have hs0 : ∀ i, register i "$s0" = .ok .s0 := fun _ => rfl
  have hzero : ∀ i, register i "$0" = .ok .zero := fun _ => rfl
  simp only [branch, hs0, hzero, hlabel, Registers.read, bind, Except.bind,
    pure, Except.pure]
  split <;> rfl

theorem effect_beq {size : Int} {state : State} {label : String} {target : Nat}
    (hlabel : p.target? label = some target) :
    effect size p pc ⟨⟨"beq", ["$s0", "$0", label]⟩, line⟩ input state =
      .ok ⟨.none, input,
        .goto (if state.registers.s0 = 0 then target else pc + 1)⟩ := by
  simp [effect, branch_cell true hlabel, Except.map]

theorem effect_bne {size : Int} {state : State} {label : String} {target : Nat}
    (hlabel : p.target? label = some target) :
    effect size p pc ⟨⟨"bne", ["$s0", "$0", label]⟩, line⟩ input state =
      .ok ⟨.none, input,
        .goto (if state.registers.s0 = 0 then pc + 1 else target)⟩ := by
  by_cases hcell : state.registers.s0 = 0
  · simp [effect, branch_cell false hlabel, Except.map, hcell]
  · simp [effect, branch_cell false hlabel, Except.map, hcell]

end Effects

/-- The place `k` instructions further on, with some input left. -/
def Cursor.ahead (c : Cursor) (k : Nat) (input : List Int) : Cursor :=
  { c with input, pc := c.pc + k, steps := c.steps + k }

/-- The failure of an instruction for want of a cell. -/
def noCell (pointer : Int) (line : Nat) : Failure :=
  .fault (.program (.outOfRange pointer) line)

/-- The program goes on to fail for want of a cell, on a machine that shows this
tape. -/
def Breaks (s : Tape.State) (c : Cursor) (m : Machine) : Prop :=
  ∃ n c' m' line, Moves n c m c' m' ∧
    c'.advance m' = ⟨.failed (noCell s.pointer line), .over, m'⟩ ∧ Shows s m'

/-- The program goes on to end, on a machine that shows this tape. -/
def Finishes (s : Tape.State) (c : Cursor) (m : Machine) : Prop :=
  ∃ n c' m' snapshot, Moves n c m c' m' ∧
    c'.advance m' = ⟨.snapshot snapshot, .over, m'⟩ ∧ Shows s m'

section Blocks

variable {s s' : Tape.State} {m m' : Machine} {c c' : Cursor}

theorem Breaks.of_moves {n : Nat} (hmoves : Moves n c m c' m') (h : Breaks s c' m') :
    Breaks s c m := by
  obtain ⟨k, c'', m'', line, hrest, hfail, hshows⟩ := h
  exact ⟨n + k, c'', m'', line, hmoves.trans hrest, hfail, hshows⟩

theorem Finishes.of_moves {n : Nat} (hmoves : Moves n c m c' m')
    (h : Finishes s c' m') : Finishes s c m := by
  obtain ⟨k, c'', m'', snapshot, hrest, hend, hshows⟩ := h
  exact ⟨n + k, c'', m'', snapshot, hmoves.trans hrest, hend, hshows⟩

theorem moves_shift {mnemonic : String} {delta : Int}
    (hat : c.program.StandsAt c.pc [⟨mnemonic, ["$sp", "$sp", "1"]⟩])
    (heffect : ∀ line, effect m.memorySize c.program c.pc
      ⟨⟨mnemonic, ["$sp", "$sp", "1"]⟩, line⟩ c.input m.state =
        .ok ⟨.register .sp (m.state.registers.sp + delta), c.input, .goto (c.pc + 1)⟩)
    (hlimit : c.limit = none) (h : Shows s m) :
    ∃ m', Moves 1 c m (c.ahead 1 c.input) m' ∧
      Shows { s with pointer := s.pointer + delta } m' := by
  obtain ⟨line, hcode⟩ := hat 0 _ rfl
  refine ⟨_, Moves.of_effect hcode hlimit (heffect line), ?_⟩
  rw [h.pointer]
  exact h.move _

/-- A block that loads the cell, changes it by a constant and stores it again. -/
theorem moves_adjust {mnemonic : String} {delta : Int} {i : Nat} {cell cell' : UInt8}
    (hat : c.program.StandsAt c.pc [⟨"lbu", ["$s0", "0($sp)"]⟩,
      ⟨mnemonic, ["$s0", "$s0", "1"]⟩, ⟨"sb", ["$s0", "0($sp)"]⟩])
    (heffect : ∀ pc line (state : State), effect m.memorySize c.program pc
      ⟨⟨mnemonic, ["$s0", "$s0", "1"]⟩, line⟩ c.input state =
        .ok ⟨.register .s0 (state.registers.s0 + delta), c.input, .goto (pc + 1)⟩)
    (hbyte : byteOf (cell.toNat + delta) = cell') (hlimit : c.limit = none)
    (h : Shows s m) (hindex : s.index? = some i) (hcell : s.cell? = some cell) :
    ∃ m', Moves 3 c m (c.ahead 3 c.input) m' ∧ Shows (s.put i cell') m' := by
  obtain ⟨line₁, h₁⟩ := hat 0 _ rfl
  obtain ⟨line₂, h₂⟩ := hat 1 _ rfl
  obtain ⟨line₃, h₃⟩ := hat 2 _ rfl
  have hload := Moves.of_effect h₁ hlimit (effect_load h hcell rfl)
  have hshows := h.register (r := .s0) (by decide) cell.toNat
  have hadd := Moves.of_effect (c := c.ahead 1 c.input)
    (m := m.change (.register .s0 cell.toNat)) h₂ hlimit (heffect _ line₂ _)
  have hshows' := hshows.register (r := .s0) (by decide) (cell.toNat + delta)
  have hstore := Moves.of_effect (c := c.ahead 2 c.input) h₃ hlimit
    (effect_store hshows' hindex rfl)
  refine ⟨_, (hload.trans hadd).trans hstore, ?_⟩
  rw [← hbyte]
  exact hshows'.put i _

theorem moves_print {cell : UInt8}
    (hat : c.program.StandsAt c.pc (operations (block .print)))
    (hlimit : c.limit = none) (h : Shows s m) (hcell : s.cell? = some cell) :
    ∃ m', Moves 3 c m (c.ahead 3 c.input) m' ∧
      Shows { s with output := s.output.push (Char.ofNat cell.toNat) } m' := by
  obtain ⟨line₁, h₁⟩ := hat 0 _ rfl
  obtain ⟨line₂, h₂⟩ := hat 1 _ rfl
  obtain ⟨line₃, h₃⟩ := hat 2 _ rfl
  have hload := Moves.of_effect h₁ hlimit (effect_load h hcell rfl)
  have hshows := h.register (r := .a0) (by decide) cell.toNat
  have hselect := Moves.of_effect (c := c.ahead 1 c.input)
    (m := m.change (.register .a0 cell.toNat)) h₂ hlimit rfl
  have hshows' := hshows.register (r := .v0) (by decide) 11
  have hcall := Moves.of_effect (c := c.ahead 2 c.input)
    (m := (m.change (.register .a0 cell.toNat)).change (.register .v0 11))
      h₃ hlimit rfl
  refine ⟨_, (hload.trans hselect).trans hcall, ?_⟩
  have hchar : Char.ofNat (byteOf (cell.toNat : Int)).toNat =
      Char.ofNat cell.toNat := by
    rw [byteOf_natCast]
  rw [← hchar]
  exact hshows'.print _

/-- The first two instructions of the block that reads: the input is in `$v0`
behind them. -/
theorem moves_fetch (hat : c.program.StandsAt c.pc (operations (block .read)))
    (hlimit : c.limit = none) (h : Shows s m) :
    ∃ m', Moves 2 c m (c.ahead 2 c.input.tail) m' ∧ Shows s m' ∧
      m'.state.registers.v0 = c.input.headD 0 := by
  obtain ⟨line₁, h₁⟩ := hat 0 _ rfl
  obtain ⟨line₂, h₂⟩ := hat 1 _ rfl
  have hselect := Moves.of_effect (m := m) h₁ hlimit rfl
  have hshows := h.register (r := .v0) (by decide) 12
  have hcall :=
    Moves.of_effect (c := c.ahead 1 c.input) (m := m.change (.register .v0 12))
      h₂ hlimit rfl
  have hshows' := hshows.register (r := .v0) (by decide) (c.input.headD 0)
  exact ⟨_, hselect.trans hcall, hshows', rfl⟩

theorem moves_read {i : Nat} (hat : c.program.StandsAt c.pc (operations (block .read)))
    (hlimit : c.limit = none) (hinput : c.input = s.input) (h : Shows s m)
    (hindex : s.index? = some i) :
    ∃ m', Moves 3 c m (c.ahead 3 c.input.tail) m' ∧
      Shows { s.put i s.nextInput with input := s.input.tail } m' := by
  obtain ⟨m', hmoves, hshows, hv0⟩ := moves_fetch hat hlimit h
  obtain ⟨line, hcode⟩ := hat 2 _ rfl
  have hstore := Moves.of_effect (c := c.ahead 2 c.input.tail) hcode hlimit
    (effect_store hshows hindex rfl)
  have hbyte : byteOf (m'.state.registers.read .v0) = s.nextInput := by
    rw [Registers.read, hv0, hinput]
    rfl
  rw [hbyte] at hstore
  exact ⟨_, hmoves.trans hstore, (hshows.put i s.nextInput).input s.input.tail⟩

/-- The block of an action does to the tape what the action does. -/
theorem moves_block {a : Action} (hat : c.program.StandsAt c.pc (operations (block a)))
    (hlimit : c.limit = none) (hinput : c.input = s.input) (h : Shows s m)
    (hact : s.act? a = some s') :
    ∃ m', Moves (Command.act a).size c m (c.ahead (Command.act a).size s'.input) m' ∧
      Shows s' m' := by
  cases a with
  | right =>
      cases hact
      have hmoves := moves_shift (m := m) hat (fun _ => rfl) hlimit h
      rw [hinput] at hmoves
      exact hmoves
  | left =>
      cases hact
      have hmoves := moves_shift (m := m) hat (fun _ => rfl) hlimit h
      rw [hinput] at hmoves
      exact hmoves
  | increment =>
      simp only [Tape.State.act?, bind, Option.bind_eq_some_iff] at hact
      obtain ⟨i, hindex, cell, hcell, hs'⟩ := hact
      cases hs'
      have hmoves :=
        moves_adjust hat (fun _ _ _ => rfl) (byteOf_succ cell) hlimit h hindex hcell
      rw [hinput] at hmoves
      exact hmoves
  | decrement =>
      simp only [Tape.State.act?, bind, Option.bind_eq_some_iff] at hact
      obtain ⟨i, hindex, cell, hcell, hs'⟩ := hact
      cases hs'
      have hmoves :=
        moves_adjust hat (fun _ _ _ => rfl) (byteOf_pred cell) hlimit h hindex hcell
      rw [hinput] at hmoves
      exact hmoves
  | print =>
      simp only [Tape.State.act?, bind, Option.bind_eq_some_iff] at hact
      obtain ⟨cell, hcell, hs'⟩ := hact
      cases hs'
      have hmoves := moves_print hat hlimit h hcell
      rw [hinput] at hmoves
      exact hmoves
  | read =>
      simp only [Tape.State.act?, bind, Option.bind_eq_some_iff] at hact
      obtain ⟨i, hindex, hs'⟩ := hact
      cases hs'
      have hmoves := moves_read hat hlimit hinput h hindex
      rw [hinput] at hmoves
      exact hmoves

/-! ## Blocks that fail

Only loads and stores fail. Every block but that of a comma begins with the
load; a comma has called the operating system by then, so its block fails two
instructions later and with the input gone, as the tape machine has it. -/

theorem breaks_load {name : String} {ops : List Operation}
    (hat : c.program.StandsAt c.pc (⟨"lbu", [name, "0($sp)"]⟩ :: ops))
    (hlimit : c.limit = none) (h : Shows s m) (hcell : s.cell? = none) :
    Breaks s c m := by
  obtain ⟨line, hcode⟩ := hat 0 _ rfl
  exact ⟨0, c, m, line, .refl c m,
    advance_of_fault hcode hlimit (effect_load_fault h hcell), h⟩

/-- Where an action fails its block fails. Reading takes the input before it
misses the cell. -/
theorem breaks_block {a : Action}
    (hat : c.program.StandsAt c.pc (operations (block a))) (hlimit : c.limit = none)
    (h : Shows s m) (hact : s.act? a = none) : Breaks s c m := by
  have hindex := Tape.State.index?_of_act?_eq_none hact
  have hcell := (Tape.State.cell?_eq_none_iff s).mpr hindex
  cases a with
  | right => cases hact
  | left => cases hact
  | increment => exact breaks_load hat hlimit h hcell
  | decrement => exact breaks_load hat hlimit h hcell
  | print => exact breaks_load hat hlimit h hcell
  | read =>
      obtain ⟨m', hmoves, hshows, _⟩ := moves_fetch hat hlimit h
      obtain ⟨line, hcode⟩ := hat 2 _ rfl
      refine ⟨2, _, m', line, hmoves, ?_, hshows⟩
      exact advance_of_fault (c := c.ahead 2 c.input.tail) hcode hlimit
        (effect_store_fault hshows hindex)

/-- The place to which a test of the cell leads. -/
def Cursor.landing (c : Cursor) (pc : Nat) : Cursor :=
  { c with pc, steps := c.steps + 2 }

/-- The block of a bracket looks at the cell and goes where its branch says. -/
theorem moves_test {o : Operation} {ifZero ifNot : Nat} {cell : UInt8}
    (hat : c.program.StandsAt c.pc [⟨"lbu", ["$s0", "0($sp)"]⟩, o])
    (heffect : ∀ line (state : State), effect m.memorySize c.program (c.pc + 1)
      ⟨o, line⟩ c.input state =
        .ok ⟨.none, c.input, .goto (if state.registers.s0 = 0 then ifZero else ifNot)⟩)
    (hlimit : c.limit = none) (h : Shows s m) (hcell : s.cell? = some cell) :
    ∃ m', Moves 2 c m (c.landing (if cell = 0 then ifZero else ifNot)) m' ∧
      Shows s m' := by
  obtain ⟨line₁, h₁⟩ := hat 0 _ rfl
  obtain ⟨line₂, h₂⟩ := hat 1 _ rfl
  have hload := Moves.of_effect h₁ hlimit (effect_load h hcell rfl)
  have hshows := h.register (r := .s0) (by decide) cell.toNat
  have hbranch := Moves.of_effect (c := c.ahead 1 c.input)
    (m := m.change (.register .s0 cell.toNat)) h₂ hlimit (heffect line₂ _)
  have hzero : (m.change (.register .s0 cell.toNat)).state.registers.s0 = 0 ↔
      cell = 0 := by
    rw [← UInt8.toNat_inj]
    exact Int.natCast_eq_zero
  simp only [hzero] at hbranch
  exact ⟨_, hload.trans hbranch, hshows⟩

/-- The block behind the program: the service is selected, and the call of it is
the end. -/
theorem moves_programExit (hat : c.program.StandsAt c.pc (operations programExit))
    (hlimit : c.limit = none) (h : Shows s m) :
    ∃ c' m' i snapshot, Moves 1 c m c' m' ∧ c'.program.code[c'.pc]? = some i ∧
      c'.advance m' = ⟨.snapshot snapshot, .over, m'⟩ ∧ Shows s m' := by
  obtain ⟨line₁, h₁⟩ := hat 0 _ rfl
  obtain ⟨line₂, h₂⟩ := hat 1 _ rfl
  have hselect := Moves.of_effect (m := m) h₁ hlimit rfl
  obtain ⟨snapshot, hexit⟩ := advance_of_exit (c := c.ahead 1 c.input)
    (m := m.change (.register .v0 10)) h₂ hlimit rfl
  exact ⟨_, _, _, snapshot, hselect, h₂, hexit, h.register (r := .v0) (by decide) 10⟩

theorem finishes_programExit (hat : c.program.StandsAt c.pc (operations programExit))
    (hlimit : c.limit = none) (h : Shows s m) : Finishes s c m := by
  obtain ⟨c', m', _, snapshot, hselect, _, hexit, hshows⟩ :=
    moves_programExit hat hlimit h
  exact ⟨1, c', m', snapshot, hselect, hexit, hshows⟩

end Blocks

end TapeMips.Machine
