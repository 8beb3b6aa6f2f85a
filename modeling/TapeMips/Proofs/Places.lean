import TapeMips.Proofs.Layout

/-!
# Places in the code of a source

The code of a source is cut into blocks, one for each character and one that ends
the program. An index into the code is a place in one of them (`Within`), and
behind it stands the next place of the same block or the start of another.

The few operations that occur in a block do not occur in it anywhere. Each stands
at the start of its block or behind certain others (`Emitted`): a cell is changed
only behind the instruction that loads it, and a `syscall` stands only behind the
`li` that selects its service. The place that ends the program is the one `syscall`
behind which nothing stands (`Within.service`).
-/

namespace TapeMips.Codegen

open Asm Source

/-- The operations of the block of a character, or those that end the program. -/
def stretch (cs : List Char) (k : Nat) : List Operation :=
  if k < cs.length then operations (blockAt cs k) else operations programExit

theorem stretch_of_lt {cs : List Char} {k : Nat} (h : k < cs.length) :
    stretch cs k = operations (blockAt cs k) := if_pos h

theorem stretch_length (cs : List Char) :
    stretch cs cs.length = operations programExit :=
  if_neg (Nat.lt_irrefl _)

theorem standsAt_stretch {cs : List Char} {k : Nat} (h : k ≤ cs.length) :
    (Program.ofLines (code cs)).StandsAt (offset cs k) (stretch cs k) := by
  rcases Nat.lt_or_eq_of_le h with hlt | rfl
  · rw [stretch_of_lt hlt]
    exact standsAt_blockAt hlt
  · rw [stretch_length]
    exact standsAt_programExit cs

theorem offset_stretch {cs : List Char} {k : Nat} (h : k < cs.length) :
    offset cs (k + 1) = offset cs k + (stretch cs k).length := by
  have hc : cs[k]? = some cs[k] := List.getElem?_eq_getElem h
  rw [stretch_of_lt h, length_operations_blockAt hc, offset_succ hc]

theorem size_code (cs : List Char) :
    (Program.ofLines (code cs)).code.size = offset cs cs.length + 2 := by
  rw [Program.ofLines, List.size_toArray, length_instructions, code, operations_append,
    List.length_append, length_operations_codeBefore (Nat.le_refl _)]
  rfl

/-- The instruction at `pc` is number `j` in the block of the character at `k`, or
in the block that ends the program. -/
structure Within (cs : List Char) (pc k j : Nat) : Prop where
  le : k ≤ cs.length
  lt : j < (stretch cs k).length
  eq : pc = offset cs k + j

/-- The operation before number `j` in its block. -/
def before (cs : List Char) (k : Nat) : (j : Nat) → Option Operation
  | 0 => none
  | j + 1 => (stretch cs k)[j]?

/-- A block that is empty is passed over. -/
theorem within_offset {cs : List Char} {k : Nat} (h : k ≤ cs.length) :
    ∃ k', Within cs (offset cs k) k' 0 := by
  -- Comments have empty blocks, so the induction is on what is left of the source.
  generalize hleft : cs.length - k = left
  induction left generalizing k with
  | zero =>
      have hend : k = cs.length := by omega
      subst hend
      exact ⟨_, h, by rw [stretch_length]; decide, rfl⟩
  | succ left ih =>
      have hlt : k < cs.length := by omega
      rcases Nat.eq_zero_or_pos (stretch cs k).length with hempty | hpos
      · obtain ⟨k', hk'⟩ := ih (k := k + 1) hlt (by omega)
        rw [offset_stretch hlt, hempty, Nat.add_zero] at hk'
        exact ⟨k', hk'⟩
      · exact ⟨k, h, hpos, rfl⟩

/-- Behind an instruction stands the next one of its block or the start of another
block. -/
theorem Within.succ {cs : List Char} {pc k j : Nat} (h : Within cs pc k j)
    (hmore : k < cs.length ∨ j = 0) :
    ∃ k' j', Within cs (pc + 1) k' j' ∧
      (before cs k' j' = none ∨ before cs k' j' = (stretch cs k)[j]?) := by
  have hlt := h.lt
  rcases Nat.lt_or_eq_of_le (Nat.succ_le_of_lt hlt) with hinside | hlast
  · refine ⟨k, j + 1, ⟨h.le, hinside, ?_⟩, Or.inr rfl⟩
    rw [h.eq, Nat.add_assoc]
  · rcases Nat.lt_or_eq_of_le h.le with hk | rfl
    · obtain ⟨k', hk'⟩ := within_offset (Nat.succ_le_of_lt hk)
      rw [Nat.succ_eq_add_one, offset_stretch hk, ← hlast, Nat.succ_eq_add_one,
        ← Nat.add_assoc, ← h.eq] at hk'
      exact ⟨k', 0, hk', Or.inl rfl⟩
    · -- Nothing stands behind the last block, and its first instruction is not
      -- its last.
      have hzero : j = 0 := by omega
      subst hzero
      rw [stretch_length] at hlast
      exact absurd hlast (by decide)

theorem Within.getElem? {cs : List Char} {pc k j : Nat} (h : Within cs pc k j) :
    ∃ o line, (stretch cs k)[j]? = some o ∧
      (Program.ofLines (code cs)).code[pc]? = some { o with line } := by
  have ho : (stretch cs k)[j]? = some _ := List.getElem?_eq_getElem h.lt
  obtain ⟨line, hcode⟩ := standsAt_stretch h.le j _ ho
  rw [← h.eq] at hcode
  exact ⟨_, line, ho, hcode⟩

/-- An operation of the code of a source, in the block of the character at `k`,
with the operation before it in that block. -/
inductive Emitted (cs : List Char) (k : Nat) :
    Option Operation → Operation → Prop where
  | shift {mnemonic : String} (inside : k < cs.length)
      (sign : mnemonic = "addi" ∨ mnemonic = "subi") :
      Emitted cs k none ⟨mnemonic, ["$sp", "$sp", "1"]⟩
  | load {name : String} (inside : k < cs.length)
      (target : name = "$s0" ∨ name = "$a0") :
      Emitted cs k none ⟨"lbu", [name, "0($sp)"]⟩
  | adjust {mnemonic : String} (inside : k < cs.length)
      (sign : mnemonic = "addi" ∨ mnemonic = "subi") :
      Emitted cs k (some ⟨"lbu", ["$s0", "0($sp)"]⟩) ⟨mnemonic, ["$s0", "$s0", "1"]⟩
  | store {previous : Option Operation} {name : String} (inside : k < cs.length)
      (source : name = "$s0" ∨ name = "$v0") :
      Emitted cs k previous ⟨"sb", [name, "0($sp)"]⟩
  | select {previous : Option Operation} {number : Nat} (inside : k < cs.length)
      (service : number = 11 ∨ number = 12) :
      Emitted cs k previous ⟨"li", ["$v0", toString number]⟩
  | call {number : Nat} (inside : k < cs.length)
      (service : number = 11 ∨ number = 12) :
      Emitted cs k (some ⟨"li", ["$v0", toString number]⟩) ⟨"syscall", []⟩
  | branch {previous : Option Operation} {mnemonic label : String} {k' : Nat}
      (inside : k < cs.length) (sign : mnemonic = "beq" ∨ mnemonic = "bne")
      (target : (Program.ofLines (code cs)).target? label = some (offset cs k'))
      (le : k' ≤ cs.length) : Emitted cs k previous ⟨mnemonic, ["$s0", "$0", label]⟩
  | selectExit (outside : k = cs.length) :
      Emitted cs k none ⟨"li", ["$v0", toString 10]⟩
  | callExit (outside : k = cs.length) :
      Emitted cs k (some ⟨"li", ["$v0", toString 10]⟩) ⟨"syscall", []⟩

theorem emitted_block {cs : List Char} {k : Nat} (hk : k < cs.length) {a : Action}
    (hblock : stretch cs k = operations (block a)) {j : Nat} {o : Operation}
    (ho : (stretch cs k)[j]? = some o) : Emitted cs k (before cs k j) o := by
  have hbefore : before cs k j = match j with
      | 0 => none
      | j + 1 => (operations (block a))[j]? := by
    rw [← hblock]
    cases j <;> rfl
  rw [hblock] at ho
  rw [hbefore]
  cases a with
  | right =>
      rcases j with _ | j <;> cases ho
      · exact .shift hk (Or.inl rfl)
  | left =>
      rcases j with _ | j <;> cases ho
      · exact .shift hk (Or.inr rfl)
  | increment =>
      rcases j with _ | _ | _ | j <;> cases ho
      · exact .load hk (Or.inl rfl)
      · exact .adjust hk (Or.inl rfl)
      · exact .store hk (Or.inl rfl)
  | decrement =>
      rcases j with _ | _ | _ | j <;> cases ho
      · exact .load hk (Or.inl rfl)
      · exact .adjust hk (Or.inr rfl)
      · exact .store hk (Or.inl rfl)
  | print =>
      rcases j with _ | _ | _ | j <;> cases ho
      · exact .load hk (Or.inr rfl)
      · exact .select hk (Or.inl rfl)
      · exact .call hk (Or.inl rfl)
  | read =>
      rcases j with _ | _ | _ | j <;> cases ho
      · exact .select hk (Or.inr rfl)
      · exact .call hk (Or.inr rfl)
      · exact .store hk (Or.inr rfl)

/-- The block of a bracket whose branch leads to the start of a block. -/
theorem emitted_bracket {cs : List Char} {k k' : Nat} (hk : k < cs.length)
    {mnemonic label : String} (hmnemonic : mnemonic = "beq" ∨ mnemonic = "bne")
    (hblock : stretch cs k = [⟨"lbu", ["$s0", "0($sp)"]⟩,
      ⟨mnemonic, ["$s0", "$0", label]⟩])
    (htarget : (Program.ofLines (code cs)).target? label = some (offset cs k'))
    (hk' : k' ≤ cs.length) {j : Nat} {o : Operation}
    (ho : (stretch cs k)[j]? = some o) : Emitted cs k (before cs k j) o := by
  rw [hblock] at ho
  rcases j with _ | _ | j <;> cases ho
  · exact .load hk (Or.inl rfl)
  · exact .branch hk hmnemonic htarget hk'

theorem emitted_exit {cs : List Char} {j : Nat} {o : Operation}
    (ho : (stretch cs cs.length)[j]? = some o) :
    Emitted cs cs.length (before cs cs.length j) o := by
  have hbefore : before cs cs.length 1 = some ⟨"li", ["$v0", toString 10]⟩ := by
    rw [before, stretch_length]
    rfl
  rw [stretch_length] at ho
  rcases j with _ | _ | j <;> cases ho
  · exact .selectExit rfl
  · rw [Nat.zero_add, hbefore]
    exact .callExit rfl

/-- Every operation of the code stands in one of these ways. -/
theorem Within.emitted {cs : List Char} (hcs : depthAfter? 0 cs = some 0)
    {pc k j : Nat} (h : Within cs pc k j) {o : Operation}
    (ho : (stretch cs k)[j]? = some o) : Emitted cs k (before cs k j) o := by
  rcases Nat.lt_or_eq_of_le h.le with hk | rfl
  · have hc : cs[k]? = some cs[k] := List.getElem?_eq_getElem hk
    have hstretch := stretch_of_lt hk
    rcases place_cases hcs hc with ⟨j', hj'⟩ | ⟨i', hi'⟩ | hflat
    · rw [blockAt_open hj'.getElem?_left] at hstretch
      have htarget := target?_loopEnd hcs hj'
      have hsucc : offset cs (j' + 1) = offset cs j' + 2 :=
        offset_succ hj'.getElem?_right
      rw [← hsucc] at htarget
      exact emitted_bracket hk (Or.inl rfl) hstretch htarget hj'.lt_length ho
    · rw [blockAt_close hi'] at hstretch
      have htarget := target?_loopStart hcs hi'
      have hsucc : offset cs (i' + 1) = offset cs i' + 2 :=
        offset_succ hi'.getElem?_left
      rw [← hsucc] at htarget
      have hlt := hi'.lt
      exact emitted_bracket hk (Or.inr rfl) hstretch htarget (by omega) ho
    · rw [blockAt_flat hc hflat, flatBlock] at hstretch
      cases hcommand : Command.ofChar? cs[k] with
      | none =>
          rw [hcommand] at hstretch
          rw [hstretch] at ho
          cases ho
      | some command =>
          cases command with
          | act a =>
              rw [hcommand] at hstretch
              exact emitted_block hk hstretch ho
          | loopOpen => exact absurd hcommand hflat.not_loopOpen
          | loopClose => exact absurd hcommand hflat.not_loopClose
  · exact emitted_exit ho

theorem Within.pos_of_before {cs : List Char} {pc k j : Nat} (h : Within cs pc k j)
    {o : Operation} (ho : before cs k j = some o) :
    0 < j ∧ ∃ line, (Program.ofLines (code cs)).code[pc - 1]? =
      some { o with line } := by
  cases j with
  | zero => cases ho
  | succ j =>
      obtain ⟨line, hcode⟩ := standsAt_stretch h.le j o ho
      have hpc : pc - 1 = offset cs k + j := by
        rw [h.eq, ← Nat.add_assoc, Nat.add_sub_cancel]
      rw [← hpc] at hcode
      exact ⟨Nat.succ_pos j, line, hcode⟩

theorem Within.eq_zero_of_before {cs : List Char} {pc k j : Nat} (h : Within cs pc k j)
    (hbefore : before cs k j = none) : j = 0 := by
  cases j with
  | zero => rfl
  | succ j =>
      have hlt := h.lt
      have hle : (stretch cs k).length ≤ j := List.getElem?_eq_none_iff.mp hbefore
      omega

theorem Within.lt_size {cs : List Char} {pc k j : Nat} (h : Within cs pc k j)
    (hk : k < cs.length) : pc + 1 < (Program.ofLines (code cs)).code.size := by
  have hlt := h.lt
  have hsucc := offset_stretch hk
  have hmono : offset cs (k + 1) ≤ offset cs cs.length := offset_mono hk
  rw [size_code, h.eq]
  omega

theorem Emitted.service {cs : List Char} {k : Nat} {previous : Option Operation}
    {o : Operation} (h : Emitted cs k previous o) (hcall : o.mnemonic = "syscall") :
    ∃ number : Nat, previous = some ⟨"li", ["$v0", toString number]⟩ ∧
      (number = 10 ∧ k = cs.length ∨ (number = 11 ∨ number = 12) ∧ k < cs.length) := by
  cases h with
  | call hk hservice => exact ⟨_, rfl, Or.inr ⟨hservice, hk⟩⟩
  | callExit hk => exact ⟨10, rfl, Or.inl ⟨rfl, hk⟩⟩
  | shift _ hsign | adjust _ hsign | branch _ hsign _ _ =>
      rcases hsign with rfl | rfl <;> simp at hcall
  | load _ _ | store _ _ | select _ _ | selectExit _ => simp at hcall

/-- The number of the service that a `syscall` calls stands directly before it,
and the last service is the one that ends the program. -/
theorem Within.service {cs : List Char} (hcs : depthAfter? 0 cs = some 0)
    {pc k j : Nat} (h : Within cs pc k j) {i : Instruction}
    (hcode : (Program.ofLines (code cs)).code[pc]? = some i)
    (hcall : i.mnemonic = "syscall") :
    ∃ number : Nat, (number = 10 ∨ number = 11 ∨ number = 12) ∧
      before cs k j = some ⟨"li", ["$v0", toString number]⟩ ∧
      (number = 10 ↔ pc + 1 = (Program.ofLines (code cs)).code.size) := by
  obtain ⟨o, line, ho, hat⟩ := h.getElem?
  rw [hcode] at hat
  cases hat
  obtain ⟨number, hbefore, hnumber⟩ := (h.emitted hcs ho).service hcall
  refine ⟨number, ?_, hbefore, ?_⟩
  · omega
  · obtain ⟨hpos, -⟩ := h.pos_of_before hbefore
    rcases hnumber with ⟨rfl, rfl⟩ | ⟨hservice, hk⟩
    · have hlt := h.lt
      rw [stretch_length] at hlt
      have htwo : (operations programExit).length = 2 := rfl
      rw [size_code, h.eq]
      omega
    · have hlt := h.lt_size hk
      omega

end TapeMips.Codegen
