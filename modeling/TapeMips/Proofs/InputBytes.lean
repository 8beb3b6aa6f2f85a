import TapeMips.Proofs.Discipline
import TapeMips.Proofs.Lockstep

/-!
# Compiled programs see bytes

What a program reads goes into `$v0` as it is, and `$v0` is also the register that
selects a service. Still a compiled program cannot tell a number from another one
with the same low byte, nor the end of its input from a zero: before the number can
select a service another one has been loaded, and all that is left of it otherwise is
the byte that goes into a cell.

Two runs whose inputs read alike (`ReadsAlike`) are therefore in lockstep, on machines
that differ in nothing but `$v0`, and there only by a multiple of 256 (`AlikeInBytes`).
Loads, branches and the other stores do not look at `$v0`. In front of a `syscall` the
discipline of compiled programs says that both machines hold the number that was
loaded directly before.
-/

namespace TapeMips.Machine

open Asm Source Codegen

/-- Two inputs that cannot be told apart by their low bytes, if nothing left to
read counts as zero. -/
def ReadsAlike (a b : List Int) : Prop := ∀ k, a.getD k 0 % 256 = b.getD k 0 % 256

theorem ReadsAlike.head {a b : List Int} (h : ReadsAlike a b) :
    a.headD 0 % 256 = b.headD 0 % 256 := by
  have hzero := h 0
  cases a <;> cases b <;> exact hzero

theorem ReadsAlike.tail {a b : List Int} (h : ReadsAlike a b) :
    ReadsAlike a.tail b.tail := by
  intro k
  have hsucc := h (k + 1)
  cases a <;> cases b <;> exact hsucc

/-- Two machines that differ in `$v0` only, and there by a multiple of 256. -/
structure AlikeInBytes (m m' : Machine) : Prop where
  memorySize : m'.memorySize = m.memorySize
  memory : m'.state.memory = m.state.memory
  output : m'.state.output = m.state.output
  sp : m'.state.registers.sp = m.state.registers.sp
  s0 : m'.state.registers.s0 = m.state.registers.s0
  a0 : m'.state.registers.a0 = m.state.registers.a0
  v0 : m'.state.registers.v0 % 256 = m.state.registers.v0 % 256

section Alike

variable {m m' : Machine}

theorem AlikeInBytes.read (h : AlikeInBytes m m') {r : Register} (hr : r ≠ .v0) :
    m'.state.registers.read r = m.state.registers.read r := by
  cases r with
  | zero => rfl
  | sp => exact h.sp
  | s0 => exact h.s0
  | a0 => exact h.a0
  | v0 => exact absurd rfl hr

theorem byteOf_congr {a b : Int} (h : a % 256 = b % 256) : byteOf a = byteOf b := by
  rw [byteOf, byteOf, h]

theorem AlikeInBytes.byteOf_read (h : AlikeInBytes m m') (r : Register) :
    byteOf (m'.state.registers.read r) = byteOf (m.state.registers.read r) := by
  cases r with
  | v0 => exact byteOf_congr h.v0
  | zero => rfl
  | sp => exact congrArg byteOf h.sp
  | s0 => exact congrArg byteOf h.s0
  | a0 => exact congrArg byteOf h.a0

theorem AlikeInBytes.change (h : AlikeInBytes m m') (ch : Change) :
    AlikeInBytes (m.change ch) (m'.change ch) := by
  cases ch with
  | none => exact h
  | register target value =>
      cases target with
      | zero => exact h
      | sp => exact { h with sp := rfl }
      | s0 => exact { h with s0 := rfl }
      | a0 => exact { h with a0 := rfl }
      | v0 => exact { h with v0 := rfl }
  | cell a value =>
      refine { h with memory := ?_ }
      show m'.state.memory.setIfInBounds a value = m.state.memory.setIfInBounds a value
      rw [h.memory]
  | print char =>
      refine { h with output := ?_ }
      show m'.state.output.push char = m.state.output.push char
      rw [h.output]

theorem AlikeInBytes.answer (h : AlikeInBytes m m') {x x' : Int}
    (hx : x % 256 = x' % 256) :
    AlikeInBytes (m.change (.register .v0 x)) (m'.change (.register .v0 x')) :=
  { h with v0 := hx.symm }

end Alike

section Effects

variable {m m' : Machine} {p : Program} {pc line : Nat} {i : Instruction}
  {rest rest' : List Int}

theorem AlikeInBytes.straight (h : AlikeInBytes m m') (hreads : ReadsAlike rest rest')
    {x x' : Except Fault Change} (hx : x' = x) :
    SameEffect AlikeInBytes ReadsAlike (fun _ => False) m m'
      (x.map fun c => ⟨c, rest, .goto (pc + 1)⟩)
      (x'.map fun c => ⟨c, rest', .goto (pc + 1)⟩) := by
  subst hx
  cases x' with
  | error f => exact .fault f
  | ok ch => exact .done hreads (h.change ch)

theorem AlikeInBytes.address (h : AlikeInBytes m m') (i : Instruction) :
    address m'.memorySize m'.state i "0($sp)" =
      address m.memorySize m.state i "0($sp)" := by
  rw [address_cell, address_cell, h.memorySize, h.sp]

theorem AlikeInBytes.load (h : AlikeInBytes m m') (name : String) :
    loadByte m'.memorySize m'.state ⟨⟨"lbu", [name, "0($sp)"]⟩, line⟩ =
      loadByte m.memorySize m.state ⟨⟨"lbu", [name, "0($sp)"]⟩, line⟩ := by
  simp only [loadByte, h.address, h.memory]

theorem AlikeInBytes.store (h : AlikeInBytes m m') (name : String) :
    storeByte m'.memorySize m'.state ⟨⟨"sb", [name, "0($sp)"]⟩, line⟩ =
      storeByte m.memorySize m.state ⟨⟨"sb", [name, "0($sp)"]⟩, line⟩ := by
  simp only [storeByte, h.address, h.memory, h.byteOf_read]

theorem AlikeInBytes.add (h : AlikeInBytes m m') (hreads : ReadsAlike rest rest')
    {mnemonic name : String} {r : Register}
    (hsign : mnemonic = "addi" ∨ mnemonic = "subi")
    (hname : Register.ofName? name = some r) (hr : r ≠ .v0) :
    SameEffect AlikeInBytes ReadsAlike (fun _ => False) m m'
      (effect m.memorySize p pc ⟨⟨mnemonic, [name, name, "1"]⟩, line⟩ rest m.state)
      (effect m'.memorySize p pc ⟨⟨mnemonic, [name, name, "1"]⟩, line⟩ rest'
        m'.state) := by
  have hregister := fun i => register_of_ofName? (i := i) hname
  rcases hsign with rfl | rfl
  · refine h.straight hreads ?_
    simp only [addImmediate, hregister, bind, Except.bind, h.read hr]
  · refine h.straight hreads ?_
    simp only [addImmediate, hregister, bind, Except.bind, h.read hr]

theorem AlikeInBytes.call (h : AlikeInBytes m m') (hreads : ReadsAlike rest rest')
    (hservice : m'.state.registers.v0 = m.state.registers.v0) :
    SameEffect AlikeInBytes ReadsAlike (fun _ => False) m m'
      (callService pc m.state i rest) (callService pc m'.state i rest') := by
  rw [callService, callService, hservice, h.a0]
  split
  · exact .done hreads h
  · split
    · exact .done hreads (h.change _)
    · split
      · exact .done hreads.tail (h.answer hreads.head)
      · exact .fault _

/-- An operation of a compiled program does the same on two machines, if both are
about to select the same service. -/
theorem AlikeInBytes.effect (h : AlikeInBytes m m') (hreads : ReadsAlike rest rest')
    {cs : List Char} {k : Nat} {previous : Option Operation} {o : Operation}
    (ho : Emitted cs k previous o)
    (hservice : o.mnemonic = "syscall" →
      m'.state.registers.v0 = m.state.registers.v0) :
    SameEffect AlikeInBytes ReadsAlike (fun _ => False) m m'
      (effect m.memorySize (Program.ofLines (code cs)) pc { o with line } rest m.state)
      (effect m'.memorySize (Program.ofLines (code cs)) pc
        { o with line } rest' m'.state) := by
  cases ho with
  | shift _ hsign => exact h.add hreads hsign (r := .sp) rfl (by decide)
  | adjust _ hsign => exact h.add hreads hsign (r := .s0) rfl (by decide)
  | load => exact h.straight hreads (h.load _)
  | store => exact h.straight hreads (h.store _)
  | select => exact h.straight hreads rfl
  | selectExit =>
      exact h.straight hreads (x := loadImmediate ⟨⟨"li", ["$v0", "10"]⟩, line⟩) rfl
  | call => exact h.call hreads (hservice rfl)
  | callExit => exact h.call hreads (hservice rfl)
  | branch _ hsign htarget _ =>
      rcases hsign with rfl | rfl
      · rw [effect_beq htarget, effect_beq htarget, h.s0]
        exact .done hreads h
      · rw [effect_bne htarget, effect_bne htarget, h.s0]
        exact .done hreads h

end Effects

/-- The program of a source keeps its registers in order. -/
def InOrder (cs : List Char) (input : List Int) (c : Cursor) (m : Machine) : Prop :=
  ∃ last, Disciplined cs input last c m

section Programs

variable {cs : List Char} {input input' : List Int}

theorem keptByEffects_inOrder (hcs : depthAfter? 0 cs = some 0) (input : List Int) :
    KeptByEffects (InOrder cs input) := by
  intro c m i ch rest pc hinOrder hcode hleft heffect
  obtain ⟨last, hdisciplined⟩ := hinOrder
  have hleads := hdisciplined.advance hcs
  have hadvance : c.advance m =
      ⟨.snapshot (snapshot (m.change ch).state (c.steps + 1) pc (some i.text)),
        .running (c.goto pc rest), m.change ch⟩ := by
    simp only [Cursor.advance, hcode, hleft, heffect]
    rfl
  rw [hadvance] at hleads
  cases hleads with
  | onward _ _ hdisciplined' => exact ⟨_, hdisciplined'⟩

/-- Two programs of a source that stand in front of a `syscall` are about to call
the same service. -/
theorem same_service (hcs : depthAfter? 0 cs = some 0) {c c' : Cursor} {m m' : Machine}
    (h : InOrder cs input c m) (h' : InOrder cs input' c' m') (hpc : c'.pc = c.pc)
    {i : Instruction} (hcode : (Program.ofLines (code cs)).code[c.pc]? = some i)
    (hcall : i.mnemonic = "syscall") :
    m'.state.registers.v0 = m.state.registers.v0 := by
  obtain ⟨last, hdisciplined⟩ := h
  obtain ⟨last', hdisciplined'⟩ := h'
  have hcode' := hcode
  rw [← hpc] at hcode'
  obtain ⟨number, -, hnumber, -, hselected, -⟩ := hdisciplined.service hcs hcode hcall
  obtain ⟨number', -, hnumber', -, hselected', -⟩ :=
    hdisciplined'.service hcs hcode' hcall
  rw [hpc, hselected] at hselected'
  simp only [Option.some.injEq, Operation.mk.injEq, List.cons.injEq] at hselected'
  rw [hnumber, hnumber', toString_injective hselected'.2.2.1]

theorem lockstep_inOrder (hcs : depthAfter? 0 cs = some 0) (input input' : List Int) :
    Lockstep AlikeInBytes ReadsAlike (fun _ => False) (InOrder cs input)
      (InOrder cs input') where
  pointer := fun h => h.sp
  output := fun h => h.output
  effects := by
    intro c m c' m' i habreast hcode
    obtain ⟨last, hdisciplined⟩ := habreast.first
    obtain ⟨k, j, hwithin, -⟩ := hdisciplined.place
    obtain ⟨o, line, ho, hat⟩ := hwithin.getElem?
    rw [hdisciplined.program] at hcode ⊢
    rw [hat] at hcode
    cases hcode
    exact habreast.alike.effect habreast.input (hwithin.emitted hcs ho)
      (same_service hcs habreast.first habreast.second habreast.pc hat)
  first := keptByEffects_inOrder hcs input
  second := keptByEffects_inOrder hcs input'

theorem abreast_start (cs : List Char) (hreads : ReadsAlike input input')
    (limit : Option Int) (size : Int) :
    Abreast AlikeInBytes ReadsAlike (InOrder cs input) (InOrder cs input')
      { program := Program.ofLines (code cs), input, limit }
      { memorySize := size, state := State.fresh size.toNat }
      { program := Program.ofLines (code cs), input := input', limit }
      { memorySize := size, state := State.fresh size.toNat } :=
  ⟨rfl, rfl, rfl, rfl, hreads, ⟨rfl, rfl, rfl, rfl, rfl, rfl, rfl⟩,
    ⟨none, disciplined_start cs input limit size⟩,
      ⟨none, disciplined_start cs input' limit size⟩⟩

end Programs

/-- A balanced source compiles, and the compiled program sees no more of its input
than the low bytes: on a new machine of any size and under any limit, two inputs
that read alike lead to the same snapshots and the same end, and at no time to a
difference in anything but `$v0`. -/
theorem compile_reads_bytes {source : String} (hbalanced : isBalanced source = true) :
    ∃ c, compile source = .ok c ∧
      ∀ (size : Int) (m : Machine) (limit : Option Int) (input input' : List Int),
        Machine.new size = .ok m → ReadsAlike input input' →
        (∀ n, SameProgress AlikeInBytes
          ((Iteration.waiting { assembly := c.assembly, input, limit }).advanceBy n m)
          ((Iteration.waiting
            { assembly := c.assembly, input := input', limit }).advanceBy n m)) ∧
        ∀ snapshots stop m₁,
          (Iteration.waiting { assembly := c.assembly, input, limit }).Yields m
            snapshots stop m₁ →
          ∃ m₂, (Iteration.waiting
            { assembly := c.assembly, input := input', limit }).Yields m
            snapshots stop m₂ ∧ AlikeInBytes m₁ m₂ := by
  have hdepth := (isBalanced_iff_depth source).mp hbalanced
  have hassemble := assemble_code hdepth
  refine ⟨_, compile_of_depth hdepth, fun size m limit input input' hnew hreads => ?_⟩
  have hlockstep := lockstep_inOrder hdepth input input'
  have hpaired : Paired AlikeInBytes ReadsAlike (InOrder source.toList input)
      (InOrder source.toList input')
      (.waiting { assembly := Line.textOf (code source.toList), input, limit }) m
      (.waiting { assembly := Line.textOf (code source.toList),
                  input := input', limit }) m := by
    refine .begun (begin_of_new hnew hassemble) (begin_of_new hnew hassemble) ?_
    obtain ⟨-, rfl, -⟩ := new_eq_ok hnew
    exact abreast_start source.toList hreads limit size
  constructor
  · intro n
    exact (hlockstep.advanceBy hpaired n).resolve_left fun ⟨_, _, hexcused⟩ => hexcused
  · intro snapshots stop m₁ hyields
    exact (hlockstep.yields hpaired hyields).resolve_left fun ⟨_, _, hexcused⟩ =>
      hexcused

/-- The program that prints its input up to a zero: the second input has the same
low bytes, and says in so many words what the first one leaves to its end. -/
theorem compile_reads_bytes_echo :
    ∃ c m, compile ",[.,]" = .ok c ∧ Machine.new 1 = .ok m ∧
      ReadsAlike [72] [328, 256] ∧
      ∀ n, SameProgress AlikeInBytes
        ((Iteration.waiting { assembly := c.assembly, input := [72] }).advanceBy n m)
        ((Iteration.waiting { assembly := c.assembly, input := [328, 256] }).advanceBy
          n m) := by
  obtain ⟨c, hcompile, halike⟩ := @compile_reads_bytes ",[.,]" (by decide)
  have hreads : ReadsAlike [72] [328, 256] := by
    intro k
    match k with
    | 0 => rfl
    | 1 => rfl
    | k + 2 => rfl
  exact ⟨c, _, hcompile, rfl, hreads, (halike 1 _ none [72] [328, 256] rfl hreads).1⟩

end TapeMips.Machine
