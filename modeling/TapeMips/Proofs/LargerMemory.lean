import TapeMips.Proofs.Failures
import TapeMips.Proofs.Lockstep
import TapeMips.Proofs.Simulation

/-!
# More memory never changes a run

The size of the memory is asked for in one place only, where an address is checked.
An address that a smaller memory allows is allowed by a larger one too, and the cell
is the same; one that a larger memory refuses is refused by a smaller one with the
same words. What is left is an address in between, and there the smaller machine
fails with an address that is out of range.

So a machine and a larger one whose further cells are all zero (`Enlarged`) are in
lockstep, with that fault excused. The further cells stay zero: a store that is not
excused hits a cell that both machines have.

An address that is out of range is named in the text of the fault, if it can be
written. One with too many digits for that is out of range everywhere, and the
failure, which is about the digits, is the same on both machines.
-/

namespace TapeMips.Machine

open Asm

/-- The second machine is the first one with more memory, all of which is zero. -/
structure Enlarged (size size' : Int) (m m' : Machine) : Prop where
  asked : m.memorySize = size
  asked' : m'.memorySize = size'
  inPlace : (m.state.memory.size : Int) = size
  memory : m'.state.memory = m.state.memory ++ Array.replicate (size' - size).toNat 0
  registers : m'.state.registers = m.state.registers
  output : m'.state.output = m.state.output

/-- The fault of an address that the memory does not have. -/
def Fault.IsOutOfRange (f : Fault) : Prop :=
  f.kind = .program ∧ ∃ address line, f = .program (.outOfRange address) line

/-- The iteration has failed because of an address that the memory does not have. -/
def Stop.IsOutOfRange (stop : Stop) : Prop :=
  ∃ f : Fault, stop = .failed (.fault f) ∧ f.IsOutOfRange

section Enlarged

variable {size size' : Int} {m m' : Machine}

theorem Enlarged.change (h : Enlarged size size' m m') {ch : Change}
    (hcell : ∀ a value, ch = .cell a value → a < m.state.memory.size) :
    Enlarged size size' (m.change ch) (m'.change ch) := by
  cases ch with
  | none => exact h
  | register target value =>
      refine ⟨h.asked, h.asked', h.inPlace, h.memory, ?_, h.output⟩
      show m'.state.registers.write value target = m.state.registers.write value target
      rw [h.registers]
  | print char =>
      refine ⟨h.asked, h.asked', h.inPlace, h.memory, h.registers, ?_⟩
      show m'.state.output.push char = m.state.output.push char
      rw [h.output]
  | cell a value =>
      refine ⟨h.asked, h.asked', ?_, ?_, h.registers, h.output⟩
      · show ((m.state.memory.setIfInBounds a value).size : Int) = size
        rw [Array.size_setIfInBounds]
        exact h.inPlace
      · show m'.state.memory.setIfInBounds a value = _ ++ _
        rw [h.memory, Array.setIfInBounds_append_left (hcell a value rfl)]
        rfl

end Enlarged

theorem outOfRange_of_lt {a : Int} (hpos : 0 ≤ a) (hlt : a < availableMemory)
    (line : Nat) : (Fault.program (.outOfRange a) line).IsOutOfRange := by
  have hwritable : Numeral.isTooLong a = false := by
    refine isTooLong_of_le (b := (availableMemory : Int)) (by omega) ?_
    decide +kernel
  exact ⟨(outOfRange_writable hwritable line).1, a, line, rfl⟩

section Effects

variable {size size' : Int} {m m' : Machine} {p : Program} {pc : Nat} {i : Instruction}
  {input : List Int}

/-- A larger memory answers for an address as the smaller one does, unless the
address lies in between. -/
theorem Enlarged.address (h : Enlarged size size' m m') (hle : size ≤ size')
    (text : String) :
    address m'.memorySize m'.state i text = address m.memorySize m.state i text ∨
      ∃ a : Int, Machine.address m.memorySize m.state i text =
        .error (.program (.outOfRange a) i.line) ∧ 0 ≤ a ∧ a < size' := by
  rw [h.asked, h.asked']
  cases ho : MemoryOperand.ofText? text with
  | none => exact Or.inl (by simp only [Machine.address, ho])
  | some o =>
      cases hoffset : o.offset with
      | error f =>
          exact Or.inl (by simp only [Machine.address, ho, hoffset, bind, Except.bind])
      | ok offset =>
          cases hbase : Register.ofName? o.base with
          | none =>
              exact Or.inl
                (by simp only [Machine.address, ho, hoffset, register, hbase, bind,
                  Except.bind])
          | some base =>
              rw [address_eq ho hoffset hbase,
                address_eq ho hoffset hbase, h.registers]
              generalize offset + m.state.registers.read base = a
              by_cases hsmall : 0 ≤ a ∧ a < size
              · left
                rw [if_pos (by simp; omega), if_pos (by simp; omega)]
              · by_cases hlarge : 0 ≤ a ∧ a < size'
                · exact Or.inr ⟨a, if_neg (by simp; omega), hlarge⟩
                · left
                  rw [if_neg (by simp; omega), if_neg (by simp; omega)]

theorem Enlarged.cell (h : Enlarged size size' m m') {a : Nat} {text : String}
    (ha : Machine.address m.memorySize m.state i text = .ok a) :
    a < m.state.memory.size ∧ a < m'.state.memory.size ∧
      m'.state.memory[a]? = m.state.memory[a]? := by
  have hlt := address_lt ha
  have hasked := h.asked
  have hsize := h.inPlace
  have hsmall : a < m.state.memory.size := by omega
  refine ⟨hsmall, ?_, ?_⟩
  · rw [h.memory, Array.size_append]
    omega
  · rw [h.memory, Array.getElem?_append_left hsmall]

/-- Loads and stores first ask for an address, and do the same with one that both
memories have. -/
theorem Enlarged.access (h : Enlarged size size' m m') (hle : size ≤ size')
    (havailable : size' ≤ availableMemory) (text : String)
    {g g' : Nat → Except Fault Change}
    (hg : ∀ a, Machine.address m.memorySize m.state i text = .ok a → g' a = g a) :
    (Machine.address m'.memorySize m'.state i text >>= g') =
        (Machine.address m.memorySize m.state i text >>= g) ∨
      ∃ f : Fault, (Machine.address m.memorySize m.state i text >>= g) = .error f ∧
        f.IsOutOfRange := by
  rcases h.address hle text with hsame | ⟨a, hbetween, hpos, hlt⟩
  · left
    rw [hsame]
    cases ha : Machine.address m.memorySize m.state i text with
    | error f => rfl
    | ok a => exact hg a ha
  · right
    rw [hbetween]
    exact ⟨_, rfl, outOfRange_of_lt hpos (by omega) i.line⟩

theorem Enlarged.loadByte (h : Enlarged size size' m m') (hle : size ≤ size')
    (havailable : size' ≤ availableMemory) :
    Machine.loadByte m'.memorySize m'.state i =
      Machine.loadByte m.memorySize m.state i ∨
      ∃ f : Fault, Machine.loadByte m.memorySize m.state i = .error f ∧
        f.IsOutOfRange := by
  rw [Machine.loadByte, Machine.loadByte]
  split
  · next target place _ =>
      refine h.access hle havailable place fun a ha => ?_
      rw [(h.cell ha).2.2]
  · exact Or.inl rfl

theorem Enlarged.storeByte (h : Enlarged size size' m m') (hle : size ≤ size')
    (havailable : size' ≤ availableMemory) :
    Machine.storeByte m'.memorySize m'.state i =
      Machine.storeByte m.memorySize m.state i ∨
      ∃ f : Fault, Machine.storeByte m.memorySize m.state i = .error f ∧
        f.IsOutOfRange := by
  rw [Machine.storeByte, Machine.storeByte]
  split
  · next source place _ =>
      refine h.access hle havailable place fun a ha => ?_
      obtain ⟨hsmall, hlarge, -⟩ := h.cell ha
      simp only [h.registers, if_pos hsmall, if_pos hlarge]
  · exact Or.inl rfl

theorem map_or_error {x x' : Except Fault Change}
    (h : x' = x ∨ ∃ f : Fault, x = .error f ∧ f.IsOutOfRange) (g : Change → Effect) :
    x'.map g = x.map g ∨ ∃ f : Fault, x.map g = .error f ∧ f.IsOutOfRange := by
  rcases h with rfl | ⟨f, rfl, hf⟩
  · exact Or.inl rfl
  · exact Or.inr ⟨f, rfl, hf⟩

/-- An instruction does the same on a larger machine, or the smaller one has too
little memory. -/
theorem Enlarged.effect (h : Enlarged size size' m m') (hle : size ≤ size')
    (havailable : size' ≤ availableMemory) :
    effect m'.memorySize p pc i input m'.state =
      effect m.memorySize p pc i input m.state ∨
      ∃ f : Fault, Machine.effect m.memorySize p pc i input m.state = .error f ∧
        f.IsOutOfRange := by
  have hregisters := h.registers
  unfold Machine.effect
  split
  · exact Or.inl (by simp only [addImmediate, hregisters])
  · exact Or.inl (by simp only [addImmediate, hregisters])
  · exact Or.inl rfl
  · exact map_or_error (h.loadByte hle havailable) _
  · exact map_or_error (h.storeByte hle havailable) _
  · exact Or.inl (by simp only [branch, hregisters])
  · exact Or.inl (by simp only [branch, hregisters])
  · exact Or.inl (by simp only [callService, hregisters])
  · exact Or.inl rfl

theorem Enlarged.sameEffect (h : Enlarged size size' m m') (hle : size ≤ size')
    (havailable : size' ≤ availableMemory) :
    SameEffect (Enlarged size size') Eq Fault.IsOutOfRange m m'
      (Machine.effect m.memorySize p pc i input m.state)
      (Machine.effect m'.memorySize p pc i input m'.state) := by
  rcases h.effect hle havailable with hsame | ⟨f, hfault, hf⟩
  · rw [hsame]
    cases heffect : Machine.effect m.memorySize p pc i input m.state with
    | error f => exact .fault f
    | ok e =>
        refine .done rfl (h.change fun a value hcell => ?_)
        cases performs_of_effect heffect with
        | store _ _ _ lt_size _ =>
            cases hcell
            exact lt_size
        | add => cases hcell
        | constant => cases hcell
        | load => cases hcell
        | jump => cases hcell
        | pass => cases hcell
        | exit => cases hcell
        | print => cases hcell
        | read => cases hcell
  · rw [hfault]
    exact .excused hf _

end Effects

section Jobs

variable {size size' : Int} {m m' : Machine}

theorem lockstep_enlarged (hle : size ≤ size') (havailable : size' ≤ availableMemory) :
    Lockstep (Enlarged size size') Eq Fault.IsOutOfRange
      (fun _ _ => True) (fun _ _ => True) where
  pointer := fun h => by rw [h.registers]
  output := fun h => h.output
  effects := by
    intro c m c' m' i habreast _
    rw [← habreast.input]
    exact habreast.alike.sameEffect hle havailable
  first := fun _ _ _ _ _ _ _ _ _ _ => trivial
  second := fun _ _ _ _ _ _ _ _ _ _ => trivial

theorem le_availableMemory (hnew : Machine.new size = .ok m) :
    size ≤ availableMemory := by
  have hsize := sizeError?_of_new hnew
  simp only [sizeError?] at hsize
  split at hsize
  · cases hsize
  · split at hsize
    · cases hsize
    · split at hsize
      · cases hsize
      · omega

theorem enlarged_new (hnew : Machine.new size = .ok m)
    (hnew' : Machine.new size' = .ok m') (hle : size ≤ size') :
    Enlarged size size' m m' := by
  obtain ⟨hpos, rfl, -⟩ := new_eq_ok hnew
  obtain ⟨hpos', rfl, -⟩ := new_eq_ok hnew'
  have hcells : size'.toNat = size.toNat + (size' - size).toNat := by omega
  refine ⟨rfl, rfl, ?_, ?_, rfl, rfl⟩
  · show ((Array.replicate size.toNat (0 : UInt8)).size : Int) = size
    rw [Array.size_replicate]
    omega
  · show Array.replicate size'.toNat (0 : UInt8) = Array.replicate size.toNat 0 ++ _
    rw [Array.replicate_append_replicate, hcells]

theorem paired_new (hnew : Machine.new size = .ok m)
    (hnew' : Machine.new size' = .ok m') (hle : size ≤ size') (job : Job) :
    Paired (Enlarged size size') Eq (fun _ _ => True) (fun _ _ => True)
      (.waiting job) m (.waiting job) m' := by
  have henlarged := enlarged_new hnew hnew' hle
  cases hassemble : assemble job.assembly with
  | error e =>
      exact .refused (begin_of_new_duplicate hnew hassemble)
        (begin_of_new_duplicate hnew' hassemble) henlarged
  | ok p =>
      exact .begun (begin_of_new hnew hassemble) (begin_of_new hnew' hassemble)
        ⟨rfl, rfl, rfl, rfl, rfl, henlarged, trivial, trivial⟩

end Jobs

/-- What a job does on a machine is what it does on a larger one. -/
structure Outgrows (job : Job) (size size' : Int) (m m' : Machine) : Prop where
  /-- After any number of advances the two have come to the same, unless the
  smaller memory was too small. -/
  advances : ∀ n, ¬ ((Iteration.waiting job).advanceBy n m).stop.IsOutOfRange →
    SameProgress (Enlarged size size') ((Iteration.waiting job).advanceBy n m)
      ((Iteration.waiting job).advanceBy n m')
  yields : ∀ snapshots stop m₁, (Iteration.waiting job).Yields m snapshots stop m₁ →
    ¬ stop.IsOutOfRange →
    ∃ m₂, (Iteration.waiting job).Yields m' snapshots stop m₂ ∧
      Enlarged size size' m₁ m₂
  /-- Even then the larger machine begins with the same snapshots. -/
  begins : ∀ snapshots stop m₁, (Iteration.waiting job).Yields m snapshots stop m₁ →
    ∃ it m₂, (Iteration.waiting job).advanceBy snapshots.length m' =
      ⟨snapshots, .paused, it, m₂⟩

/-- More memory never changes a run: whatever the text, the input and the limit of
a job, a new machine of some size and a larger one do the same, unless the smaller
one fails for want of memory. -/
theorem larger_memory_runs_alike {size size' : Int} {m m' : Machine}
    (hnew : Machine.new size = .ok m) (hnew' : Machine.new size' = .ok m')
    (hle : size ≤ size') (job : Job) : Outgrows job size size' m m' := by
  have hlockstep := lockstep_enlarged hle (le_availableMemory hnew')
  have hpaired := paired_new hnew hnew' hle job
  exact ⟨fun n hrange => (hlockstep.advanceBy hpaired n).resolve_left hrange,
    fun _ _ _ hyields hrange => (hlockstep.yields hpaired hyields).resolve_left hrange,
    fun _ _ _ hyields => hlockstep.paused hpaired hyields⟩

/-- A step to the right and a store: with one cell the store is out of range, with
two it is not. -/
theorem larger_memory_runs_alike_store :
    let job : Job := { assembly := "addi $sp, $sp, 1\nsb $sp, 0($sp)" }
    ∃ m₁ m₂ m₃, Machine.new 1 = .ok m₁ ∧ Machine.new 2 = .ok m₂ ∧
      Machine.new 3 = .ok m₃ ∧
      ((Iteration.waiting job).advanceBy 3 m₁).stop =
        .failed (.fault (.program (.outOfRange 1) 2)) ∧
      ((Iteration.waiting job).advanceBy 3 m₂).machine.state.memory = #[0, 1] ∧
      ((Iteration.waiting job).advanceBy 3 m₃).machine.state.memory = #[0, 1, 0] ∧
      Outgrows job 1 2 m₁ m₂ ∧ Outgrows job 2 3 m₂ m₃ := by
  intro job
  have hnew₁ : Machine.new 1 = .ok { memorySize := 1, state := State.fresh 1 } := rfl
  have hnew₂ : Machine.new 2 = .ok { memorySize := 2, state := State.fresh 2 } := rfl
  have hnew₃ : Machine.new 3 = .ok { memorySize := 3, state := State.fresh 3 } := rfl
  exact ⟨_, _, _, hnew₁, hnew₂, hnew₃,
    by decide +kernel, by decide +kernel, by decide +kernel,
    larger_memory_runs_alike hnew₁ hnew₂ (by decide) job,
      larger_memory_runs_alike hnew₂ hnew₃ (by decide) job⟩

end TapeMips.Machine
