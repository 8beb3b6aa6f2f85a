import TapeMips.Proofs.Advances
import TapeMips.Proofs.Blocks
import TapeMips.Proofs.Places

/-!
# What compiled programs do with the registers

Input goes into `$v0`, and `$v0` also selects the service of a `syscall`; the cell
in `$s0` is changed before it is cut down to a byte again. That neither gets out of
hand is a matter of where in a block the program stands. All that is known of the
registers in front of an instruction is what the one before it in its block has left
(`Ready`), and that is all that the instruction relies on. At the start of a block
nothing is known.

That is enough because a program comes into a block only at its start: an
instruction leads to the one behind it, a branch to a label, and labels stand
between blocks. The program cannot run past its end, because the last block ends
with a `syscall` whose service has just been selected.

The invariant (`Disciplined`) is kept by every advance, and so it holds after any
number of them. It says nothing about memory: an instruction that misses its cell
ends the iteration, and the registers stay as they are.
-/

namespace TapeMips.Machine

open Asm Source Codegen

/-- What holds of the registers after `n` instructions, wherever the program stands. -/
structure Ranges (input : List Int) (n : Nat) (r : Registers) : Prop where
  s0 : -1 ≤ r.s0 ∧ r.s0 ≤ 256
  a0 : 0 ≤ r.a0 ∧ r.a0 ≤ 255
  sp : r.sp.natAbs ≤ n
  v0 : r.v0 = 0 ∨ r.v0 = 10 ∨ r.v0 = 11 ∨ r.v0 = 12 ∨ r.v0 ∈ input

section Ranges

variable {input : List Int} {n : Nat} {r : Registers}

theorem Ranges.mono (h : Ranges input n r) {n' : Nat} (hle : n ≤ n') :
    Ranges input n' r :=
  ⟨h.s0, h.a0, Nat.le_trans h.sp hle, h.v0⟩

theorem Ranges.write_s0 (h : Ranges input n r) {x : Int} (hx : -1 ≤ x ∧ x ≤ 256) :
    Ranges input (n + 1) { r with s0 := x } :=
  ⟨hx, h.a0, Nat.le_succ_of_le h.sp, h.v0⟩

theorem Ranges.write_a0 (h : Ranges input n r) {x : Int} (hx : 0 ≤ x ∧ x ≤ 255) :
    Ranges input (n + 1) { r with a0 := x } :=
  ⟨h.s0, hx, Nat.le_succ_of_le h.sp, h.v0⟩

theorem Ranges.write_v0 (h : Ranges input n r) {x : Int}
    (hx : x = 0 ∨ x = 10 ∨ x = 11 ∨ x = 12 ∨ x ∈ input) :
    Ranges input (n + 1) { r with v0 := x } :=
  ⟨h.s0, h.a0, Nat.le_succ_of_le h.sp, hx⟩

theorem Ranges.move (h : Ranges input n r) {delta : Int}
    (hdelta : delta = 1 ∨ delta = -1) :
    Ranges input (n + 1) { r with sp := r.sp + delta } := by
  have hsp := h.sp
  refine ⟨h.s0, h.a0, ?_, h.v0⟩
  dsimp only
  omega

end Ranges

/-- What is known of the registers behind an operation of the same block. -/
structure Ready (previous : Option Operation) (r : Registers) : Prop where
  loaded : previous = some ⟨"lbu", ["$s0", "0($sp)"]⟩ → 0 ≤ r.s0 ∧ r.s0 ≤ 255
  selected : ∀ number : Nat, previous = some ⟨"li", ["$v0", toString number]⟩ →
    r.v0 = number

theorem ready_none (r : Registers) : Ready none r := ⟨nofun, nofun⟩

theorem ready_of_mnemonic {mnemonic : String} (h : mnemonic ≠ "lbu" ∧ mnemonic ≠ "li")
    (operands : List String) (r : Registers) :
    Ready (some ⟨mnemonic, operands⟩) r := by
  refine ⟨fun heq => ?_, fun number heq => ?_⟩
  · cases heq
    exact absurd rfl h.1
  · cases heq
    exact absurd rfl h.2

theorem ready_load {name : String} {r : Registers}
    (h : name = "$s0" → 0 ≤ r.s0 ∧ r.s0 ≤ 255) :
    Ready (some ⟨"lbu", [name, "0($sp)"]⟩) r := by
  refine ⟨fun heq => ?_, fun number heq => ?_⟩
  · simp only [Option.some.injEq, Operation.mk.injEq, List.cons.injEq] at heq
    exact h heq.2.1
  · simp only [Option.some.injEq, Operation.mk.injEq] at heq
    exact absurd heq.1 (by decide)

theorem ready_select (number : Nat) {r : Registers} (h : r.v0 = number) :
    Ready (some ⟨"li", ["$v0", toString number]⟩) r := by
  refine ⟨fun heq => ?_, fun number' heq => ?_⟩
  · simp only [Option.some.injEq, Operation.mk.injEq] at heq
    exact absurd heq.1 (by decide)
  · simp only [Option.some.injEq, Operation.mk.injEq, List.cons.injEq] at heq
    rw [h, toString_injective heq.2.2.1]

theorem cell_range (cell : UInt8) :
    (0 : Int) ≤ cell.toNat ∧ (cell.toNat : Int) ≤ 255 := by
  have hlt := cell.toNat_lt
  omega

section Effects

variable {size : Int} {p : Program} {pc line : Nat} {rest : List Int} {s : State}
  {e : Effect}

theorem load_of_effect {name place : String} {r : Register}
    (hr : Register.ofName? name = some r)
    (h : effect size p pc ⟨⟨"lbu", [name, place]⟩, line⟩ rest s = .ok e) :
    ∃ cell : UInt8, e = ⟨.register r cell.toNat, rest, .goto (pc + 1)⟩ := by
  obtain ⟨ch, hload, rfl⟩ := map_eq_ok h
  obtain ⟨a, -, hcell⟩ := bind_eq_ok hload
  cases hget : s.memory[a]? with
  | none =>
      rw [hget] at hcell
      cases hcell
  | some cell =>
      rw [hget] at hcell
      obtain ⟨t, ht, hch⟩ := bind_eq_ok hcell
      rw [register_of_ofName? hr] at ht
      cases ht
      cases hch
      exact ⟨cell, rfl⟩

theorem store_of_effect {name place : String}
    (h : effect size p pc ⟨⟨"sb", [name, place]⟩, line⟩ rest s = .ok e) :
    ∃ a value, e = ⟨.cell a value, rest, .goto (pc + 1)⟩ := by
  obtain ⟨ch, hstore, rfl⟩ := map_eq_ok h
  obtain ⟨a, -, hsource⟩ := bind_eq_ok hstore
  obtain ⟨b, -, hcell⟩ := bind_eq_ok hsource
  split at hcell
  · cases hcell
    exact ⟨a, _, rfl⟩
  · cases hcell

theorem add_of_effect {mnemonic name : String} {r : Register}
    (hsign : mnemonic = "addi" ∨ mnemonic = "subi")
    (hr : Register.ofName? name = some r)
    (h : effect size p pc ⟨⟨mnemonic, [name, name, "1"]⟩, line⟩ rest s = .ok e) :
    ∃ delta : Int, (delta = 1 ∨ delta = -1) ∧
      e = ⟨.register r (s.registers.read r + delta), rest, .goto (pc + 1)⟩ := by
  have hone : ∀ i, immediate i "1" = .ok 1 := fun _ => rfl
  have hname := register_of_ofName? hr
  rcases hsign with rfl | rfl
  · refine ⟨1, Or.inl rfl, ?_⟩
    simp only [effect, addImmediate, hone, hname, bind, Except.bind, pure,
      Except.pure, Except.map, Except.ok.injEq] at h
    exact h.symm
  · refine ⟨-1, Or.inr rfl, ?_⟩
    simp only [effect, addImmediate, hone, hname, bind, Except.bind, pure,
      Except.pure, Except.map, Except.ok.injEq] at h
    exact h.symm

theorem branch_of_effect {mnemonic label : String} {target : Nat}
    (hsign : mnemonic = "beq" ∨ mnemonic = "bne")
    (htarget : p.target? label = some target)
    (h : effect size p pc ⟨⟨mnemonic, ["$s0", "$0", label]⟩, line⟩ rest s = .ok e) :
    ∃ index, (index = target ∨ index = pc + 1) ∧ e = ⟨.none, rest, .goto index⟩ := by
  rcases hsign with rfl | rfl
  · rw [effect_beq htarget] at h
    cases h
    refine ⟨_, ?_, rfl⟩
    split <;> simp
  · rw [effect_bne htarget] at h
    cases h
    refine ⟨_, ?_, rfl⟩
    split <;> simp

theorem service_of_effect
    (h : effect size p pc ⟨⟨"syscall", []⟩, line⟩ rest s = .ok e) :
    s.registers.v0 = 10 ∧ e = ⟨.none, rest, .exit⟩ ∨
    s.registers.v0 = 11 ∧ (∃ char, e = ⟨.print char, rest, .goto (pc + 1)⟩) ∨
    s.registers.v0 = 12 ∧
      e = ⟨.register .v0 (rest.headD 0), rest.tail, .goto (pc + 1)⟩ := by
  have hcall : callService pc s ⟨⟨"syscall", []⟩, line⟩ rest = .ok e := h
  rw [callService] at hcall
  split at hcall
  · next hexit =>
      cases hcall
      exact Or.inl ⟨hexit, rfl⟩
  · split at hcall
    · next hprint =>
        cases hcall
        exact Or.inr (Or.inl ⟨hprint, _, rfl⟩)
    · split at hcall
      · next hread =>
          cases hcall
          exact Or.inr (Or.inr ⟨hread, rfl⟩)
      · cases hcall

end Effects

/-- What an operation of the code of a source leaves. -/
structure Leaves (cs : List Char) (input : List Int) (n pc k : Nat)
    (previous : Option Operation) (o : Operation) (s : State) (e : Effect) : Prop where
  ranges : Ranges input (n + 1) (s.apply e.change).registers
  input : ∀ x ∈ e.input, x ∈ input
  next : (e.next = .goto (pc + 1) ∧ (k < cs.length ∨ previous = none) ∧
      Ready (some o) (s.apply e.change).registers) ∨
    (∃ k', e.next = .goto (offset cs k') ∧ k' ≤ cs.length) ∨
    (e.next = .exit ∧ e.change = .none ∧ o = ⟨"syscall", []⟩ ∧ s.registers.v0 = 10)

theorem leaves_of_emitted {cs : List Char} {k : Nat} {previous : Option Operation}
    {o : Operation} (h : Emitted cs k previous o) {input rest : List Int}
    {n pc line : Nat} {size : Int} {s : State} (hready : Ready previous s.registers)
    (hranges : Ranges input n s.registers) (hrest : ∀ x ∈ rest, x ∈ input) {e : Effect}
    (heffect : effect size (Program.ofLines (code cs)) pc { o with line } rest s =
      .ok e) :
    Leaves cs input n pc k previous o s e := by
  have hlater := hranges.mono (Nat.le_succ n)
  cases h with
  | @shift mnemonic hk hsign =>
      obtain ⟨delta, hdelta, rfl⟩ := add_of_effect hsign (r := .sp) rfl heffect
      have hother : mnemonic ≠ "lbu" ∧ mnemonic ≠ "li" := by
        rcases hsign with rfl | rfl <;> decide
      exact ⟨hranges.move hdelta, hrest,
        Or.inl ⟨rfl, Or.inl hk, ready_of_mnemonic hother _ _⟩⟩
  | load hk htarget =>
      rcases htarget with rfl | rfl
      · obtain ⟨cell, rfl⟩ := load_of_effect (r := .s0) rfl heffect
        have hcell := cell_range cell
        exact ⟨hranges.write_s0 (by omega), hrest,
          Or.inl ⟨rfl, Or.inl hk, ready_load fun _ => hcell⟩⟩
      · obtain ⟨cell, rfl⟩ := load_of_effect (r := .a0) rfl heffect
        exact ⟨hranges.write_a0 (cell_range cell), hrest,
          Or.inl ⟨rfl, Or.inl hk, ready_load fun heq => absurd heq (by decide)⟩⟩
  | @adjust mnemonic hk hsign =>
      have hloaded := hready.loaded rfl
      obtain ⟨delta, hdelta, rfl⟩ := add_of_effect hsign (r := .s0) rfl heffect
      have hrange : -1 ≤ s.registers.s0 + delta ∧ s.registers.s0 + delta ≤ 256 := by
        omega
      have hother : mnemonic ≠ "lbu" ∧ mnemonic ≠ "li" := by
        rcases hsign with rfl | rfl <;> decide
      exact ⟨hranges.write_s0 hrange, hrest,
        Or.inl ⟨rfl, Or.inl hk, ready_of_mnemonic hother _ _⟩⟩
  | store hk _ =>
      obtain ⟨a, value, rfl⟩ := store_of_effect heffect
      exact ⟨hlater, hrest, Or.inl ⟨rfl, Or.inl hk, ready_of_mnemonic (by decide) _ _⟩⟩
  | select hk hservice =>
      rcases hservice with rfl | rfl
      · cases heffect
        exact ⟨hranges.write_v0 (Or.inr (Or.inr (Or.inl rfl))), hrest,
          Or.inl ⟨rfl, Or.inl hk, ready_select 11 rfl⟩⟩
      · cases heffect
        exact ⟨hranges.write_v0 (Or.inr (Or.inr (Or.inr (Or.inl rfl)))), hrest,
          Or.inl ⟨rfl, Or.inl hk, ready_select 12 rfl⟩⟩
  | call hk hservice =>
      have hselected := hready.selected _ rfl
      have hready' : ∀ r, Ready (some ⟨"syscall", []⟩) r :=
        ready_of_mnemonic (by decide) []
      rcases service_of_effect heffect with ⟨hexit, -⟩ | ⟨-, char, rfl⟩ | ⟨-, rfl⟩
      · omega
      · exact ⟨hlater, hrest, Or.inl ⟨rfl, Or.inl hk, hready' _⟩⟩
      · refine ⟨hranges.write_v0 ?_, fun x hx => hrest x (List.mem_of_mem_tail hx),
          Or.inl ⟨rfl, Or.inl hk, hready' _⟩⟩
        cases rest with
        | nil => exact Or.inl rfl
        | cons x rest =>
            exact Or.inr (Or.inr (Or.inr (Or.inr (hrest x List.mem_cons_self))))
  | @branch _ mnemonic _ _ hk hsign htarget hle =>
      obtain ⟨index, hindex, rfl⟩ := branch_of_effect hsign htarget heffect
      have hother : mnemonic ≠ "lbu" ∧ mnemonic ≠ "li" := by
        rcases hsign with rfl | rfl <;> decide
      refine ⟨hlater, hrest, ?_⟩
      rcases hindex with rfl | rfl
      · exact Or.inr (Or.inl ⟨_, rfl, hle⟩)
      · exact Or.inl ⟨rfl, Or.inl hk, ready_of_mnemonic hother _ _⟩
  | selectExit _ =>
      cases heffect
      exact ⟨hranges.write_v0 (Or.inr (Or.inl rfl)), hrest,
        Or.inl ⟨rfl, Or.inr rfl, ready_select 10 rfl⟩⟩
  | callExit _ =>
      have hselected := hready.selected _ rfl
      rcases service_of_effect heffect with ⟨-, rfl⟩ | ⟨hprint, -⟩ | ⟨hread, -⟩
      · exact ⟨hlater, hrest, Or.inr (Or.inr ⟨rfl, rfl, rfl, hselected⟩)⟩
      · omega
      · omega

/-! ## The invariant

What a register holds depends on the place in a block. So the invariant has
the place, and with it what the instruction directly before has left in `$v0`;
the ranges hold at every place alike. -/

/-- The program of a source stands somewhere in a block, with registers as the
instruction before has left them; `last` is the text of the instruction that was
carried out last. -/
structure Disciplined (cs : List Char) (input : List Int) (last : Option String)
    (c : Cursor) (m : Machine) : Prop where
  program : c.program = Program.ofLines (code cs)
  ranges : Ranges input c.steps m.state.registers
  unread : ∀ x ∈ c.input, x ∈ input
  place : ∃ k j, Within cs c.pc k j ∧ Ready (before cs k j) m.state.registers ∧
    ∀ o, before cs k j = some o → last = some o.text

/-- In front of a `syscall`, `$v0` holds the number that was loaded directly before. -/
theorem Disciplined.service {cs : List Char} (hcs : depthAfter? 0 cs = some 0)
    {input : List Int} {last : Option String} {c : Cursor} {m : Machine}
    (h : Disciplined cs input last c m) {i : Instruction}
    (hcode : (Program.ofLines (code cs)).code[c.pc]? = some i)
    (hcall : i.mnemonic = "syscall") :
    ∃ number : Nat, (number = 10 ∨ number = 11 ∨ number = 12) ∧
      m.state.registers.v0 = number ∧ 0 < c.pc ∧
      (Program.ofLines (code cs)).code[c.pc - 1]?.map (·.toOperation) =
        some ⟨"li", ["$v0", toString number]⟩ ∧
      last = some (selectService (toString number)).text ∧
      (number = 10 ↔ c.pc + 1 = (Program.ofLines (code cs)).code.size) := by
  obtain ⟨k, j, hwithin, hready, hlast⟩ := h.place
  obtain ⟨number, hnumber, hbefore, hend⟩ := hwithin.service hcs hcode hcall
  obtain ⟨hpos, line, hli⟩ := hwithin.pos_of_before hbefore
  have hpc := hwithin.eq
  exact ⟨number, hnumber, hready.selected number hbefore, by omega, by rw [hli]; rfl,
    hlast _ hbefore, hend⟩

/-- The call that ends the program: it is the last instruction, and the service is
the one that was meant. -/
structure Exits (p : Program) (s : Snapshot) (m : Machine) : Prop where
  pc : s.pc + 1 = p.code.size
  instruction : s.instruction = some "syscall"
  service : m.state.registers.v0 = 10

/-- What an advance comes to. -/
inductive Leads (cs : List Char) (input : List Int) (c : Cursor) (m : Machine) :
    Advance → Prop where
  | failed (e : Failure) : Leads cs input c m ⟨.failed e, .over, m⟩
  | onward {s : Snapshot} {text : String} {c' : Cursor} {m' : Machine}
      (instruction : s.instruction = some text) (steps : c'.steps = c.steps + 1)
      (disciplined : Disciplined cs input (some text) c' m') :
      Leads cs input c m ⟨.snapshot s, .running c', m'⟩
  | exit {s : Snapshot} (exits : Exits (Program.ofLines (code cs)) s m) :
      Leads cs input c m ⟨.snapshot s, .over, m⟩

theorem Disciplined.advance {cs : List Char} (hcs : depthAfter? 0 cs = some 0)
    {input : List Int} {last : Option String} {c : Cursor} {m : Machine}
    (h : Disciplined cs input last c m) : Leads cs input c m (c.advance m) := by
  obtain ⟨k, j, hwithin, hready, -⟩ := h.place
  obtain ⟨o, line, ho, hat⟩ := hwithin.getElem?
  have hcode := hat
  rw [← h.program] at hcode
  have hadvances := advances c m
  generalize c.advance m = a at hadvances
  cases hadvances with
  | finished hnone =>
      rw [hcode] at hnone
      cases hnone
  | spent _ _ => exact .failed _
  | fault _ _ _ => exact .failed _
  | exit hsome _ heffect =>
      rw [hcode] at hsome
      cases hsome
      rw [h.program] at heffect
      have hleaves :=
        leaves_of_emitted (hwithin.emitted hcs ho) hready h.ranges h.unread heffect
      rcases hleaves.next with ⟨hnext, -⟩ | ⟨k', hnext, -⟩ | ⟨-, rfl, rfl, hten⟩
      · cases hnext
      · cases hnext
      · obtain ⟨number, -, hnumber, -, -, -, hend⟩ := h.service hcs hat rfl
        exact .exit ⟨hend.mp (by omega), rfl, hten⟩
  | goto hsome _ heffect =>
      rw [hcode] at hsome
      cases hsome
      rw [h.program] at heffect
      have hleaves :=
        leaves_of_emitted (hwithin.emitted hcs ho) hready h.ranges h.unread heffect
      refine .onward rfl rfl ⟨h.program, hleaves.ranges, hleaves.input, ?_⟩
      rcases hleaves.next with ⟨hnext, hmore, hready'⟩ | ⟨k', hnext, hle⟩ | ⟨hnext, -⟩
      · cases hnext
        obtain ⟨k', j', hwithin', hbefore⟩ := hwithin.succ
          (hmore.imp_right hwithin.eq_zero_of_before)
        refine ⟨k', j', hwithin', ?_⟩
        rcases hbefore with hnone | hsome
        · rw [hnone]
          exact ⟨ready_none _, nofun⟩
        · rw [hsome, ho]
          refine ⟨hready', fun o' ho' => ?_⟩
          cases ho'
          rfl
      · cases hnext
        obtain ⟨k'', hwithin'⟩ := within_offset hle
        exact ⟨k'', 0, hwithin', ready_none _, nofun⟩
      · cases hnext

/-- The text of the instruction that the last of some snapshots names; `last` if
there are none. -/
def lastText (last : Option String) (snapshots : List Snapshot) : Option String :=
  (snapshots.map (·.instruction)).getLastD last

/-- What holds after some advances, when `n` instructions had been carried out
before them, the last of them `last`. -/
structure Kept (cs : List Char) (input : List Int) (last : Option String) (n : Nat)
    (q : Progress) : Prop where
  ranges : Ranges input (n + q.snapshots.length) q.machine.state.registers
  named : ∀ s ∈ q.snapshots, ∃ text, s.instruction = some text
  running : ∀ c, q.iteration = .running c → c.steps = n + q.snapshots.length ∧
    Disciplined cs input (lastText last q.snapshots) c q.machine
  ends : q.iteration = .over → (∃ e, q.stop = .failed e) ∨
    ∃ s, q.snapshots.getLast? = some s ∧ Exits (Program.ofLines (code cs)) s q.machine

theorem Kept.cons {cs : List Char} {input : List Int} {last : Option String} {n : Nat}
    {q : Progress} {s : Snapshot} {text : String} (hs : s.instruction = some text)
    (h : Kept cs input (some text) (n + 1) q) :
    Kept cs input last n { q with snapshots := s :: q.snapshots } := by
  have hcount : n + (s :: q.snapshots).length = n + 1 + q.snapshots.length := by
    rw [List.length_cons]
    omega
  refine ⟨?_, ?_, fun c hc => ?_, fun hover => ?_⟩
  · show Ranges input (n + (s :: q.snapshots).length) _
    rw [hcount]
    exact h.ranges
  · intro s' hs'
    rcases List.mem_cons.mp hs' with rfl | hrest
    · exact ⟨text, hs⟩
    · exact h.named s' hrest
  · show c.steps = n + (s :: q.snapshots).length ∧ _
    have hlast : lastText last (s :: q.snapshots) =
        lastText (some text) q.snapshots := by
      rw [lastText, List.map_cons, List.getLastD_cons, hs, lastText]
    rw [hcount, hlast]
    exact h.running c hc
  · rcases h.ends hover with hfailed | ⟨s', hs', hexits⟩
    · exact Or.inl hfailed
    · refine Or.inr ⟨s', ?_, hexits⟩
      rw [List.getLast?_cons, hs', Option.getD_some]

theorem Exits.kept {cs : List Char} {input : List Int} {last : Option String} {n : Nat}
    {q : Progress} {s : Snapshot} (h : Exits (Program.ofLines (code cs)) s q.machine)
    (hranges : Ranges input n q.machine.state.registers)
    (hsnapshots : q.snapshots = [s]) (hover : q.iteration = .over) :
    Kept cs input last n q where
  ranges := hranges.mono (Nat.le_add_right n _)
  named := by
    intro s' hs'
    rw [hsnapshots, List.mem_singleton] at hs'
    rw [hs']
    exact ⟨_, h.instruction⟩
  running := by
    intro c hc
    rw [hover] at hc
    cases hc
  ends := fun _ => Or.inr ⟨s, by rw [hsnapshots]; rfl, h⟩

theorem Disciplined.advanceBy {cs : List Char} (hcs : depthAfter? 0 cs = some 0)
    {input : List Int} {last : Option String} {c : Cursor} {m : Machine}
    (h : Disciplined cs input last c m) (n : Nat) :
    Kept cs input last c.steps ((Iteration.running c).advanceBy n m) := by
  induction n generalizing c m last with
  | zero =>
      refine ⟨h.ranges, fun s hs => ?_, fun c' hc' => ?_, fun hover => ?_⟩
      · cases hs
      · cases hc'
        exact ⟨rfl, h⟩
      · cases hover
  | succ n ih =>
      have hleads := h.advance hcs
      rw [Iteration.advanceBy, Iteration.advance]
      generalize c.advance m = a at hleads
      cases hleads with
      | failed e =>
          refine ⟨h.ranges, fun s hs => ?_, fun c' hc' => ?_, fun _ => Or.inl ⟨e, rfl⟩⟩
          · cases hs
          · cases hc'
      | onward hinstruction hsteps hdisciplined =>
          have hrest := ih hdisciplined
          rw [hsteps] at hrest
          exact hrest.cons hinstruction
      | exit hexits =>
          -- The rest is an iteration that is over: it reports nothing, however
          -- often it is advanced.
          cases n with
          | zero => exact hexits.kept h.ranges rfl rfl
          | succ n => exact hexits.kept h.ranges rfl rfl

/-- What a program does with its registers, seen after some advances: the ranges
of the registers, the service that is about to be called, and how the program
ends. -/
structure Obeys (p : Program) (input : List Int) (q : Progress) : Prop where
  ranges : Ranges input q.snapshots.length q.machine.state.registers
  /-- Every snapshot is that of an instruction. -/
  named : ∀ s ∈ q.snapshots, ∃ text, s.instruction = some text
  /-- The program does not run past its end. -/
  pc_lt : ∀ c, q.iteration = .running c →
    c.program = p ∧ c.steps = q.snapshots.length ∧ c.pc < p.code.size
  /-- In front of a `syscall`, `$v0` holds the number that the instruction
  directly before it has loaded, and only the last `syscall` ends the program. -/
  service : ∀ c i, q.iteration = .running c → p.code[c.pc]? = some i →
    i.mnemonic = "syscall" →
    ∃ number : Nat, (number = 10 ∨ number = 11 ∨ number = 12) ∧
      q.machine.state.registers.v0 = number ∧ 0 < c.pc ∧
      p.code[c.pc - 1]?.map (·.toOperation) = some ⟨"li", ["$v0", toString number]⟩ ∧
      q.snapshots.getLast?.bind (·.instruction) =
        some (selectService (toString number)).text ∧
      (number = 10 ↔ c.pc + 1 = p.code.size)
  /-- An iteration that is over has failed or has come to that `syscall`. -/
  ends : q.iteration = .over → (∃ e, q.stop = .failed e) ∨
    ∃ s, q.snapshots.getLast? = some s ∧ Exits p s q.machine

theorem lastText_none (snapshots : List Snapshot) :
    lastText none snapshots = snapshots.getLast?.bind (·.instruction) := by
  rw [lastText, List.getLastD_eq_getLast?, List.getLast?_map]
  cases snapshots.getLast? <;> rfl

theorem Kept.obeys {cs : List Char} (hcs : depthAfter? 0 cs = some 0)
    {input : List Int} {q : Progress} (h : Kept cs input none 0 q) :
    Obeys (Program.ofLines (code cs)) input q where
  ranges := by
    have hranges := h.ranges
    rw [Nat.zero_add] at hranges
    exact hranges
  named := h.named
  pc_lt := by
    intro c hc
    obtain ⟨hsteps, hdisciplined⟩ := h.running c hc
    obtain ⟨k, j, hwithin, -⟩ := hdisciplined.place
    obtain ⟨o, line, -, hcode⟩ := hwithin.getElem?
    exact ⟨hdisciplined.program, by rw [hsteps, Nat.zero_add],
      (Array.getElem?_eq_some_iff.mp hcode).1⟩
  service := by
    intro c i hc hcode hcall
    obtain ⟨-, hdisciplined⟩ := h.running c hc
    rw [lastText_none] at hdisciplined
    exact hdisciplined.service hcs hcode hcall
  ends := h.ends

theorem ranges_fresh (input : List Int) : Ranges input 0 {} :=
  ⟨by decide, by decide, Nat.le_refl 0, Or.inl rfl⟩

theorem disciplined_start (cs : List Char) (input : List Int) (limit : Option Int)
    (size : Int) :
    Disciplined cs input none { program := Program.ofLines (code cs), input, limit }
      { memorySize := size, state := State.fresh size.toNat } where
  program := rfl
  ranges := ranges_fresh input
  unread := fun _ hx => hx
  place := by
    obtain ⟨k, hwithin⟩ := within_offset (Nat.zero_le cs.length)
    exact ⟨k, 0, hwithin, ready_none _, nofun⟩

/-- A balanced source compiles, and on a new machine of any size, with any input
and any limit, the compiled program begins with its first instruction and keeps to
its registers after any number of advances. -/
theorem compile_obeys {source : String} (hbalanced : isBalanced source = true) :
    ∃ c p, compile source = .ok c ∧ assemble c.assembly = .ok p ∧
      ∀ (size : Int) (m : Machine) (input : List Int) (limit : Option Int),
        Machine.new size = .ok m →
        Job.begin { assembly := c.assembly, input, limit } m =
          (m, .ok { program := p, input, limit }) ∧
        ∀ n, Obeys p input
          ((Iteration.running { program := p, input, limit }).advanceBy n m) ∧
          (0 < n → (Iteration.waiting
            { assembly := c.assembly, input, limit }).advanceBy n m =
            (Iteration.running { program := p, input, limit }).advanceBy n m) := by
  have hdepth := (isBalanced_iff_depth source).mp hbalanced
  have hassemble := assemble_code hdepth
  refine ⟨_, _, compile_of_depth hdepth, hassemble, fun size m input limit hnew => ?_⟩
  have hbegin :
      Job.begin { assembly := Line.textOf (code source.toList), input, limit } m = _ :=
    begin_of_new hnew hassemble
  refine ⟨hbegin, fun n => ⟨?_, fun hpos => ?_⟩⟩
  · obtain ⟨-, rfl, -⟩ := new_eq_ok hnew
    exact ((disciplined_start _ input limit size).advanceBy hdepth n).obeys hdepth
  · obtain ⟨n, rfl⟩ := Nat.exists_eq_succ_of_ne_zero (Nat.ne_of_gt hpos)
    exact advanceBy_of_begun hbegin n

/-- The program that prints its input, given two numbers that are also numbers of
services. -/
theorem compile_obeys_services :
    isBalanced ",[.,]" = true ∧ ∃ c p m, compile ",[.,]" = .ok c ∧
      assemble c.assembly = .ok p ∧
      Machine.new 1 = .ok m ∧
      ∀ n, Obeys p [10, 11]
        ((Iteration.running
          { program := p, input := [10, 11], limit := none }).advanceBy n m) := by
  obtain ⟨c, p, hcompile, hassemble, hobeys⟩ := @compile_obeys ",[.,]" (by decide)
  exact ⟨by decide, c, p, _, hcompile, hassemble, rfl,
    fun n => ((hobeys 1 _ [10, 11] none rfl).2 n).1⟩

end TapeMips.Machine
