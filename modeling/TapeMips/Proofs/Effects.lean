import TapeMips.Machine.Execute

/-!
# What an instruction can do

An instruction checks its operands one after the other, and any of the checks can
stop it. Later arguments do not want to go through these checks again. They ask
what an instruction has done if it was carried out, and what can be the matter if
it was not; both are answered here, once for every mnemonic.

* `Performs` lists the effects. Four mnemonics write a register, one a cell, two
  go to a label or pass on, and a service ends the program, prints a byte or
  brings in the next input. With each effect stand the checks that it has passed.

* `Refuses` lists the faults. All but two kinds blame the program and name its
  line. An offset with too many digits is read by the two memory instructions
  only, and so is a cell that the size asked for allows but the memory in place
  does not have.
-/

namespace TapeMips.Machine

open Asm

theorem bind_eq_ok {ε α β : Type} {x : Except ε α} {f : α → Except ε β} {b : β}
    (h : x >>= f = .ok b) : ∃ a, x = .ok a ∧ f a = .ok b := by
  cases x with
  | error e => cases h
  | ok a => exact ⟨a, rfl, h⟩

theorem bind_eq_error {ε α β : Type} {x : Except ε α} {f : α → Except ε β} {e : ε}
    (h : x >>= f = .error e) : x = .error e ∨ ∃ a, x = .ok a ∧ f a = .error e := by
  cases x with
  | error e' =>
      cases h
      exact Or.inl rfl
  | ok a => exact Or.inr ⟨a, rfl, h⟩

theorem map_eq_ok {ε α β : Type} {x : Except ε α} {f : α → β} {b : β}
    (h : x.map f = .ok b) : ∃ a, x = .ok a ∧ f a = b := by
  cases x with
  | error e => cases h
  | ok a => exact ⟨a, rfl, Except.ok.inj h⟩

theorem map_eq_error {ε α β : Type} {x : Except ε α} {f : α → β} {e : ε}
    (h : x.map f = .error e) : x = .error e := by
  cases x with
  | error e' =>
      cases h
      rfl
  | ok a => cases h

section Operands

variable {size : Int} {s : State} {i : Instruction}

theorem register_eq_ok {name : String} {r : Register} (h : register i name = .ok r) :
    Register.ofName? name = some r := by
  rw [register] at h
  cases hname : Register.ofName? name with
  | none =>
      rw [hname] at h
      cases h
  | some r' =>
      rw [hname] at h
      cases h
      rfl

theorem register_of_ofName? {name : String} {r : Register}
    (h : Register.ofName? name = some r) (i : Instruction) :
    register i name = .ok r := by
  rw [register, h]

theorem register_eq_error {name : String} {f : Fault}
    (h : register i name = .error f) :
    f = .program (.unknownRegister name) i.line := by
  rw [register] at h
  cases hname : Register.ofName? name with
  | none =>
      rw [hname] at h
      cases h
      rfl
  | some r' =>
      rw [hname] at h
      cases h

theorem immediate_eq_ok {text : String} {n : Int} (h : immediate i text = .ok n) :
    Numeral.literal? text = some n := by
  rw [immediate] at h
  cases hn : Numeral.literal? text with
  | none =>
      rw [hn] at h
      cases h
  | some n' =>
      rw [hn] at h
      cases h
      rfl

theorem immediate_eq_error {text : String} {f : Fault}
    (h : immediate i text = .error f) :
    f = .program (.invalidImmediate text) i.line := by
  rw [immediate] at h
  cases hn : Numeral.literal? text with
  | none =>
      rw [hn] at h
      cases h
      rfl
  | some n' =>
      rw [hn] at h
      cases h

theorem offset_eq_error {o : MemoryOperand} {f : Fault} (h : o.offset = .error f) :
    Numeral.maxDigits < o.digits.length ∧ f = .offsetTooLong o.digits.length := by
  rw [MemoryOperand.offset] at h
  split at h
  · cases h
  · next hlong =>
      cases h
      exact ⟨Nat.lt_of_not_le hlong, rfl⟩

theorem address_eq {text : String} {o : MemoryOperand} {offset : Int} {base : Register}
    (ho : MemoryOperand.ofText? text = some o) (hoffset : o.offset = .ok offset)
    (hbase : Register.ofName? o.base = some base) :
    address size s i text =
      if 0 ≤ offset + s.registers.read base &&
          offset + s.registers.read base < size then
        .ok (offset + s.registers.read base).toNat
      else
        .error (.program (.outOfRange (offset + s.registers.read base)) i.line) := by
  rw [address, ho]
  simp only [hoffset, register_of_ofName? hbase, bind, Except.bind]
  rfl

theorem address_lt {text : String} {a : Nat} (h : address size s i text = .ok a) :
    a < size := by
  rw [address] at h
  cases ho : MemoryOperand.ofText? text with
  | none =>
      rw [ho] at h
      cases h
  | some o =>
      rw [ho] at h
      obtain ⟨offset, -, h⟩ := bind_eq_ok h
      obtain ⟨base, -, h⟩ := bind_eq_ok h
      dsimp only at h
      split at h
      · next hrange =>
          simp only [Bool.and_eq_true, decide_eq_true_eq] at hrange
          cases h
          omega
      · cases h

theorem address_eq_error {text : String} {f : Fault}
    (h : address size s i text = .error f) :
    (∃ cause, f = .program cause i.line) ∨
      ∃ o, MemoryOperand.ofText? text = some o ∧ Numeral.maxDigits < o.digits.length ∧
        f = .offsetTooLong o.digits.length := by
  rw [address] at h
  cases ho : MemoryOperand.ofText? text with
  | none =>
      rw [ho] at h
      cases h
      exact Or.inl ⟨_, rfl⟩
  | some o =>
      rw [ho] at h
      rcases bind_eq_error h with hoffset | ⟨offset, -, h⟩
      · obtain ⟨hlong, rfl⟩ := offset_eq_error hoffset
        exact Or.inr ⟨o, rfl, hlong, rfl⟩
      · rcases bind_eq_error h with hbase | ⟨base, -, h⟩
        · exact Or.inl ⟨_, register_eq_error hbase⟩
        · dsimp only at h
          split at h
          · cases h
          · cases h
            exact Or.inl ⟨_, rfl⟩

end Operands

/-! ## Effects

`effect` is a series of checks, and what is said about an arbitrary
instruction needs the checks that it has passed. `Performs` lists the effects
together with these, one constructor for each kind, so that later proofs go by
its cases and not through the checks again. -/

section Performs

variable {size : Int} {p : Program} {pc : Nat} {i : Instruction} {input : List Int}
  {s : State}

/-- The effects of an instruction, each with the checks that it has passed. -/
inductive Performs (size : Int) (p : Program) (pc : Nat) (i : Instruction)
    (input : List Int) (s : State) : Effect → Prop where
  | add {sign value : Int} {target source constant : String} {t b : Register}
      (mnemonic : i.mnemonic = "addi" ∧ sign = 1 ∨ i.mnemonic = "subi" ∧ sign = -1)
      (operands : i.operands = [target, source, constant])
      (value_eq : Numeral.literal? constant = some value)
      (source_eq : Register.ofName? source = some b)
      (target_eq : Register.ofName? target = some t) :
      Performs size p pc i input s
        ⟨.register t (s.registers.read b + sign * value), input, .goto (pc + 1)⟩
  | constant {value : Int} {target constant : String} {t : Register}
      (mnemonic : i.mnemonic = "li") (operands : i.operands = [target, constant])
      (value_eq : Numeral.literal? constant = some value)
      (target_eq : Register.ofName? target = some t) :
      Performs size p pc i input s ⟨.register t value, input, .goto (pc + 1)⟩
  | load {target place : String} {t : Register} {a : Nat} {cell : UInt8}
      (mnemonic : i.mnemonic = "lbu") (operands : i.operands = [target, place])
      (address_eq : address size s i place = .ok a)
      (cell_eq : s.memory[a]? = some cell)
      (target_eq : Register.ofName? target = some t) :
      Performs size p pc i input s ⟨.register t cell.toNat, input, .goto (pc + 1)⟩
  | store {source place : String} {b : Register} {a : Nat}
      (mnemonic : i.mnemonic = "sb") (operands : i.operands = [source, place])
      (address_eq : address size s i place = .ok a) (lt_size : a < s.memory.size)
      (source_eq : Register.ofName? source = some b) :
      Performs size p pc i input s
        ⟨.cell a (byteOf (s.registers.read b)), input, .goto (pc + 1)⟩
  | jump {left right label : String} {l r : Register} {whenEqual : Bool} {index : Nat}
      (mnemonic : i.mnemonic = "beq" ∧ whenEqual = true ∨
        i.mnemonic = "bne" ∧ whenEqual = false)
      (operands : i.operands = [left, right, label])
      (left_eq : Register.ofName? left = some l)
      (right_eq : Register.ofName? right = some r)
      (taken : (s.registers.read l == s.registers.read r) = whenEqual)
      (target : p.target? label = some index) :
      Performs size p pc i input s ⟨.none, input, .goto index⟩
  | pass {left right label : String} {l r : Register} {whenEqual : Bool}
      (mnemonic : i.mnemonic = "beq" ∧ whenEqual = true ∨
        i.mnemonic = "bne" ∧ whenEqual = false)
      (operands : i.operands = [left, right, label])
      (left_eq : Register.ofName? left = some l)
      (right_eq : Register.ofName? right = some r)
      (passed : (s.registers.read l == s.registers.read r) ≠ whenEqual) :
      Performs size p pc i input s ⟨.none, input, .goto (pc + 1)⟩
  | exit (mnemonic : i.mnemonic = "syscall") (service : s.registers.v0 = 10) :
      Performs size p pc i input s ⟨.none, input, .exit⟩
  | print (mnemonic : i.mnemonic = "syscall") (service : s.registers.v0 = 11) :
      Performs size p pc i input s
        ⟨.print (Char.ofNat (byteOf s.registers.a0).toNat), input, .goto (pc + 1)⟩
  | read (mnemonic : i.mnemonic = "syscall") (service : s.registers.v0 = 12) :
      Performs size p pc i input s
        ⟨.register .v0 (input.headD 0), input.tail, .goto (pc + 1)⟩

theorem performs_addImmediate {sign : Int} {ch : Change}
    (hmnemonic : i.mnemonic = "addi" ∧ sign = 1 ∨ i.mnemonic = "subi" ∧ sign = -1)
    (h : addImmediate sign s i = .ok ch) :
    Performs size p pc i input s ⟨ch, input, .goto (pc + 1)⟩ := by
  rw [addImmediate] at h
  split at h
  · next target source constant hoperands =>
      obtain ⟨value, hvalue, h⟩ := bind_eq_ok h
      obtain ⟨b, hsource, h⟩ := bind_eq_ok h
      obtain ⟨t, htarget, h⟩ := bind_eq_ok h
      cases h
      exact .add hmnemonic hoperands (immediate_eq_ok hvalue) (register_eq_ok hsource)
        (register_eq_ok htarget)
  · cases h

theorem performs_loadImmediate {ch : Change} (hmnemonic : i.mnemonic = "li")
    (h : loadImmediate i = .ok ch) :
    Performs size p pc i input s ⟨ch, input, .goto (pc + 1)⟩ := by
  rw [loadImmediate] at h
  split at h
  · next target constant hoperands =>
      obtain ⟨value, hvalue, h⟩ := bind_eq_ok h
      obtain ⟨t, htarget, h⟩ := bind_eq_ok h
      cases h
      exact .constant hmnemonic hoperands (immediate_eq_ok hvalue)
        (register_eq_ok htarget)
  · cases h

theorem performs_loadByte {ch : Change} (hmnemonic : i.mnemonic = "lbu")
    (h : loadByte size s i = .ok ch) :
    Performs size p pc i input s ⟨ch, input, .goto (pc + 1)⟩ := by
  rw [loadByte] at h
  split at h
  · next target place hoperands =>
      obtain ⟨a, haddress, h⟩ := bind_eq_ok h
      cases hcell : s.memory[a]? with
      | none =>
          rw [hcell] at h
          cases h
      | some cell =>
          rw [hcell] at h
          obtain ⟨t, htarget, h⟩ := bind_eq_ok h
          cases h
          exact .load hmnemonic hoperands haddress hcell (register_eq_ok htarget)
  · cases h

theorem performs_storeByte {ch : Change} (hmnemonic : i.mnemonic = "sb")
    (h : storeByte size s i = .ok ch) :
    Performs size p pc i input s ⟨ch, input, .goto (pc + 1)⟩ := by
  rw [storeByte] at h
  split at h
  · next source place hoperands =>
      obtain ⟨a, haddress, h⟩ := bind_eq_ok h
      obtain ⟨b, hsource, h⟩ := bind_eq_ok h
      split at h
      · next hlt =>
          cases h
          exact .store hmnemonic hoperands haddress hlt (register_eq_ok hsource)
      · cases h
  · cases h

theorem performs_branch {whenEqual : Bool} {index : Nat}
    (hmnemonic : i.mnemonic = "beq" ∧ whenEqual = true ∨
      i.mnemonic = "bne" ∧ whenEqual = false)
    (h : branch whenEqual p pc s i = .ok index) :
    Performs size p pc i input s ⟨.none, input, .goto index⟩ := by
  rw [branch] at h
  split at h
  · next left right label hoperands =>
      obtain ⟨l, hl, h⟩ := bind_eq_ok h
      obtain ⟨r, hr, h⟩ := bind_eq_ok h
      split at h
      · next htaken =>
          cases htarget : p.target? label with
          | none =>
              rw [htarget] at h
              cases h
          | some index' =>
              rw [htarget] at h
              cases h
              exact .jump hmnemonic hoperands (register_eq_ok hl) (register_eq_ok hr)
                (beq_iff_eq.mp htaken) htarget
      · next hpassed =>
          cases h
          exact .pass hmnemonic hoperands (register_eq_ok hl) (register_eq_ok hr)
            fun heq => hpassed (beq_iff_eq.mpr heq)
  · cases h

theorem performs_callService {e : Effect} (hmnemonic : i.mnemonic = "syscall")
    (h : callService pc s i input = .ok e) : Performs size p pc i input s e := by
  rw [callService] at h
  split at h
  · next hservice =>
      cases h
      exact .exit hmnemonic hservice
  · split at h
    · next hservice =>
        cases h
        exact .print hmnemonic hservice
    · split at h
      · next hservice =>
          cases h
          exact .read hmnemonic hservice
      · cases h

/-- Whatever an instruction does is in the list. -/
theorem performs_of_effect {e : Effect} (h : effect size p pc i input s = .ok e) :
    Performs size p pc i input s e := by
  unfold effect at h
  dsimp only at h
  split at h
  · next hmnemonic =>
      obtain ⟨ch, hch, rfl⟩ := map_eq_ok h
      exact performs_addImmediate (Or.inl ⟨hmnemonic, rfl⟩) hch
  · next hmnemonic =>
      obtain ⟨ch, hch, rfl⟩ := map_eq_ok h
      exact performs_addImmediate (Or.inr ⟨hmnemonic, rfl⟩) hch
  · next hmnemonic =>
      obtain ⟨ch, hch, rfl⟩ := map_eq_ok h
      exact performs_loadImmediate hmnemonic hch
  · next hmnemonic =>
      obtain ⟨ch, hch, rfl⟩ := map_eq_ok h
      exact performs_loadByte hmnemonic hch
  · next hmnemonic =>
      obtain ⟨ch, hch, rfl⟩ := map_eq_ok h
      exact performs_storeByte hmnemonic hch
  · next hmnemonic =>
      obtain ⟨index, hindex, rfl⟩ := map_eq_ok h
      exact performs_branch (Or.inl ⟨hmnemonic, rfl⟩) hindex
  · next hmnemonic =>
      obtain ⟨index, hindex, rfl⟩ := map_eq_ok h
      exact performs_branch (Or.inr ⟨hmnemonic, rfl⟩) hindex
  · next hmnemonic => exact performs_callService hmnemonic h
  · cases h

end Performs

/-! ## Faults

A fault is the program's own unless it comes from an offset with too many
digits to be converted, or from an address between the cells in place and the
size that was asked for. `Refuses` says which operands these two come from. -/

section Refuses

variable {size : Int} {p : Program} {pc : Nat} {i : Instruction} {input : List Int}
  {s : State}

/-- The faults of an instruction. -/
inductive Refuses (size : Int) (i : Instruction) (s : State) : Fault → Prop where
  | blamed (cause : Cause) : Refuses size i s (.program cause i.line)
  | offset {x place : String} {o : MemoryOperand}
      (mnemonic : i.mnemonic = "lbu" ∨ i.mnemonic = "sb")
      (operands : i.operands = [x, place])
      (operand : MemoryOperand.ofText? place = some o)
      (long : Numeral.maxDigits < o.digits.length) :
      Refuses size i s (.offsetTooLong o.digits.length)
  | beyond {x place : String} {a : Nat}
      (mnemonic : i.mnemonic = "lbu" ∨ i.mnemonic = "sb")
      (operands : i.operands = [x, place])
      (address_eq : address size s i place = .ok a) (size_le : s.memory.size ≤ a) :
      Refuses size i s (.beyondMemory a)

theorem refuses_address {x place : String} {f : Fault}
    (hmnemonic : i.mnemonic = "lbu" ∨ i.mnemonic = "sb")
    (hoperands : i.operands = [x, place]) (h : address size s i place = .error f) :
    Refuses size i s f := by
  rcases address_eq_error h with ⟨cause, rfl⟩ | ⟨o, ho, hlong, rfl⟩
  · exact .blamed cause
  · exact .offset hmnemonic hoperands ho hlong

theorem refuses_register {name : String} {f : Fault} (h : register i name = .error f) :
    Refuses size i s f := by
  rw [register_eq_error h]
  exact .blamed _

theorem refuses_immediate {text : String} {f : Fault}
    (h : immediate i text = .error f) : Refuses size i s f := by
  rw [immediate_eq_error h]
  exact .blamed _

theorem refuses_addImmediate {sign : Int} {f : Fault}
    (h : addImmediate sign s i = .error f) : Refuses size i s f := by
  rw [addImmediate] at h
  split at h
  · rcases bind_eq_error h with hvalue | ⟨value, -, h⟩
    · exact refuses_immediate hvalue
    · rcases bind_eq_error h with hsource | ⟨b, -, h⟩
      · exact refuses_register hsource
      · rcases bind_eq_error h with htarget | ⟨t, -, h⟩
        · exact refuses_register htarget
        · cases h
  · cases h
    exact .blamed _

theorem refuses_loadImmediate {f : Fault} (h : loadImmediate i = .error f) :
    Refuses size i s f := by
  rw [loadImmediate] at h
  split at h
  · rcases bind_eq_error h with hvalue | ⟨value, -, h⟩
    · exact refuses_immediate hvalue
    · rcases bind_eq_error h with htarget | ⟨t, -, h⟩
      · exact refuses_register htarget
      · cases h
  · cases h
    exact .blamed _

theorem refuses_loadByte {f : Fault} (hmnemonic : i.mnemonic = "lbu")
    (h : loadByte size s i = .error f) : Refuses size i s f := by
  rw [loadByte] at h
  split at h
  · next target place hoperands =>
      rcases bind_eq_error h with haddress | ⟨a, haddress, h⟩
      · exact refuses_address (Or.inl hmnemonic) hoperands haddress
      · cases hcell : s.memory[a]? with
        | none =>
            rw [hcell] at h
            cases h
            exact .beyond (Or.inl hmnemonic) hoperands haddress
              (Array.getElem?_eq_none_iff.mp hcell)
        | some cell =>
            rw [hcell] at h
            rcases bind_eq_error h with htarget | ⟨t, -, h⟩
            · exact refuses_register htarget
            · cases h
  · cases h
    exact .blamed _

theorem refuses_storeByte {f : Fault} (hmnemonic : i.mnemonic = "sb")
    (h : storeByte size s i = .error f) : Refuses size i s f := by
  rw [storeByte] at h
  split at h
  · next source place hoperands =>
      rcases bind_eq_error h with haddress | ⟨a, haddress, h⟩
      · exact refuses_address (Or.inr hmnemonic) hoperands haddress
      · rcases bind_eq_error h with hsource | ⟨b, -, h⟩
        · exact refuses_register hsource
        · split at h
          · cases h
          · next hge =>
              cases h
              exact .beyond (Or.inr hmnemonic) hoperands haddress
                (Nat.le_of_not_lt hge)
  · cases h
    exact .blamed _

theorem refuses_branch {whenEqual : Bool} {f : Fault}
    (h : branch whenEqual p pc s i = .error f) : Refuses size i s f := by
  rw [branch] at h
  split at h
  · rcases bind_eq_error h with hl | ⟨l, -, h⟩
    · exact refuses_register hl
    · rcases bind_eq_error h with hr | ⟨r, -, h⟩
      · exact refuses_register hr
      · split at h
        · split at h
          · cases h
          · cases h
            exact .blamed _
        · cases h
  · cases h
    exact .blamed _

theorem refuses_callService {f : Fault} (h : callService pc s i input = .error f) :
    Refuses size i s f := by
  rw [callService] at h
  split at h
  · cases h
  · split at h
    · cases h
    · split at h
      · cases h
      · cases h
        exact .blamed _

/-- Whatever stops an instruction is in the list. -/
theorem refuses_of_effect {f : Fault} (h : effect size p pc i input s = .error f) :
    Refuses size i s f := by
  unfold effect at h
  dsimp only at h
  split at h
  · exact refuses_addImmediate (map_eq_error h)
  · exact refuses_addImmediate (map_eq_error h)
  · exact refuses_loadImmediate (map_eq_error h)
  · next hmnemonic => exact refuses_loadByte hmnemonic (map_eq_error h)
  · next hmnemonic => exact refuses_storeByte hmnemonic (map_eq_error h)
  · exact refuses_branch (map_eq_error h)
  · exact refuses_branch (map_eq_error h)
  · exact refuses_callService h
  · cases h
    exact .blamed _

end Refuses

end TapeMips.Machine
