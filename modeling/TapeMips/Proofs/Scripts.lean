import TapeMips.CommandLine.CompileFile
import TapeMips.Proofs.Generate
import TapeMips.Proofs.Utf8
import TapeMips.Proofs.Writes

/-!
# How scripts run

A script that is put together from others runs as they do, one after the other:
`Yields` says that a script comes to an end, with which result and on which disk,
and there is one lemma for each way of putting scripts together. That is all that
is used of the definition of scripts; what a single request does is said for each
kind of request.

A write or a closing may fail at any point, so nothing is known of the content of
an open file while a program is written to it, except where everything goes well.
What is known at every point is that a file stands there, or the device, and that
nothing has happened elsewhere. This is kept by every transfer, hence by any number
of them, and it is enough for the file to be taken away in the end.
-/

namespace TapeMips.Files

open TapeMips.Files.Tree

namespace Script

variable {α β : Type}

/-- The script comes to an end on a disk, with this result, and leaves this disk. -/
def Yields (s : Script (List String) α) (d : Disk) (a : α) (d' : Disk) : Prop :=
  s.runOn d = (some a, d')

theorem yields_pure (a : α) (d : Disk) :
    Yields (pure a : Script (List String) α) d a d := rfl

theorem runOn_bind (s : Script (List String) α) (f : α → Script (List String) β)
    (d : Disk) :
    (s >>= f).runOn d =
      match s.runOn d with
      | (some a, d') => (f a).runOn d'
      | (none, d') => (none, d') := by
  induction s generalizing d with
  | done a => rfl
  | ask call next ih =>
      show (Script.ask call fun answer => next answer >>= f).runOn d = _
      rw [runOn, runOn]
      rcases d.answer call with ⟨answer | answer, d'⟩
      · rfl
      · exact ih answer d'

theorem Yields.bind {s : Script (List String) α} {f : α → Script (List String) β}
    {d d' d'' : Disk} {a : α} {b : β} (h : s.Yields d a d')
    (h' : (f a).Yields d' b d'') : (s >>= f).Yields d b d'' := by
  rw [Yields, runOn_bind, h]
  exact h'

/-- The script waits for ever on a disk, and has not changed it. -/
def Hangs (s : Script (List String) α) (d : Disk) : Prop := s.runOn d = (none, d)

theorem Hangs.bind {s : Script (List String) α} {d : Disk} (h : s.Hangs d)
    (f : α → Script (List String) β) : (s >>= f).Hangs d := by
  rw [Hangs, runOn_bind, h]

theorem Yields.bind_hangs {s : Script (List String) α} {f : α → Script (List String) β}
    {d : Disk} {a : α} (h : s.Yields d a d) (h' : (f a).Hangs d) :
    (s >>= f).Hangs d := by
  rw [Hangs, runOn_bind, h]
  exact h'

theorem yields_request {call : SystemCall (List String) α} {d d' : Disk} {a : α}
    (h : d.answer call = (some a, d')) : (request call).Yields d a d' := by
  rw [Yields, request, runOn, h]
  rfl

theorem hangs_request {call : SystemCall (List String) α} {d : Disk}
    (h : d.answer call = (none, d)) : (request call).Hangs d := by
  rw [Hangs, request, runOn, h]

end Script

/-! ## Transfers

`Wrote` says what any number of writes and closings do to one open file, so that a
program written in portions and then closed is again a case of it. -/

namespace Disk

/-- None of the next `n` writes and closings goes wrong. -/
def GoesWell (d : Disk) (n : Nat) : Prop := ∀ k, k < n → d.faults[k]?.join = none

theorem GoesWell.mono {d : Disk} {m n : Nat} (h : d.GoesWell n) (hle : m ≤ n) :
    d.GoesWell m :=
  fun k hk => h k (Nat.lt_of_lt_of_le hk hle)

theorem goesWell_add {d d' : Disk} {m n : Nat} (h : d'.faults = d.faults.drop m) :
    d.GoesWell (m + n) ↔ d.GoesWell m ∧ d'.GoesWell n := by
  constructor
  · intro hall
    refine ⟨hall.mono (Nat.le_add_right m n), fun k hk => ?_⟩
    rw [h, List.getElem?_drop]
    exact hall (m + k) (by omega)
  · rintro ⟨hfirst, hrest⟩ k hk
    rcases Nat.lt_or_ge k m with hlt | hge
    · exact hfirst k hlt
    · have hback := hrest (k - m) (by omega)
      rwa [h, List.getElem?_drop, Nat.add_sub_cancel' hge] at hback

theorem goesWell_one (d : Disk) : d.GoesWell 1 ↔ d.faults.head?.join = none := by
  rw [List.head?_eq_getElem?]
  constructor
  · exact fun h => h 0 Nat.one_pos
  · intro h k hk
    rwa [Nat.lt_one_iff.mp hk]

/-- In `n` transfers to an open file, together of these bytes, the disk `d` has
become `d'`. -/
structure Wrote (d : Disk) (place : List String) (bytes : List UInt8) (n : Nat)
    (r : Except SystemError Unit) (d' : Disk) : Prop where
  onlyAt : OnlyAt d.tree d'.tree place
  holdsFile : d'.tree.HoldsFile place
  device : d.tree.node? place = some .fullDevice →
    d'.tree.node? place = some .fullDevice
  /-- A file has become longer by a prefix of the bytes, or has lost some of what
  it held. -/
  content : ∀ old, d.tree.node? place = some (.file old) →
    ∃ new, d'.tree.node? place = some (.file new) ∧ new <+: old ++ bytes ∧
      (r = .ok () → new = old ++ bytes)
  ok_iff : r = .ok () ↔
    d.GoesWell n ∧ (d.tree.node? place = some .fullDevice → bytes = [])
  faults : r = .ok () → d'.faults = d.faults.drop n

theorem wrote_nothing {d : Disk} {place : List String} (h : d.tree.HoldsFile place) :
    d.Wrote place [] 0 (.ok ()) d where
  onlyAt := OnlyAt.refl d.tree place
  holdsFile := h
  device := id
  content := fun old hold => ⟨old, hold, by simp, by simp⟩
  ok_iff := ⟨fun _ => ⟨fun _ hk => absurd hk (Nat.not_lt_zero _), fun _ => rfl⟩,
    fun _ => rfl⟩
  faults := fun _ => rfl

/-- A transfer to a file. -/
theorem wrote_file {d : Disk} {place : List String} {old : List UInt8}
    (h : d.tree.node? place = some (.file old)) (bytes : List UInt8) :
    d.Wrote place bytes 1 (d.transfer place bytes).1 (d.transfer place bytes).2 := by
  have hnil : place ≠ [] := ne_nil_of_not_directory (t := d.tree) (by simp [h])
  have hinsert (new : Node) := node?_insert_self d.tree hnil new
  have honly (new : Node) := onlyAt_insert d.tree place new
  cases hfault : d.faults.head?.join with
  | none =>
      simp only [transfer, h, hfault, Node.append]
      refine ⟨honly _, ⟨_, hinsert _, by simp⟩,
        by simp [h], fun old' hold => ?_, ?_, ?_⟩
      · rw [h, Option.some.injEq, Node.file.injEq] at hold
        rw [← hold]
        exact ⟨_, hinsert _, List.prefix_rfl, fun _ => rfl⟩
      · simp [goesWell_one, hfault, h]
      · exact fun _ => List.drop_one.symm
  | some f =>
      simp only [transfer, h, hfault, Node.append]
      refine ⟨honly _, ⟨_, hinsert _, by simp⟩,
        by simp [h], fun old' hold => ?_, ?_, by simp⟩
      · rw [h, Option.some.injEq, Node.file.injEq] at hold
        exact ⟨_, hinsert _, hold ▸ List.take_prefix _ _, by simp⟩
      · simp [goesWell_one, hfault]

/-- A transfer to the device. -/
theorem wrote_device {d : Disk} {place : List String}
    (h : d.tree.node? place = some .fullDevice) (bytes : List UInt8) :
    d.Wrote place bytes 1 (d.transfer place bytes).1 (d.transfer place bytes).2 := by
  have hnil : place ≠ [] := ne_nil_of_not_directory (t := d.tree) (by simp [h])
  have hinsert := node?_insert_self d.tree hnil .fullDevice
  have honly := onlyAt_insert d.tree place .fullDevice
  cases hfault : d.faults.head?.join with
  | none =>
      simp only [transfer, h, hfault, Node.append]
      refine ⟨honly, ⟨_, hinsert, by simp⟩, fun _ => hinsert, by simp [h], ?_, ?_⟩
      · cases bytes <;> simp [goesWell_one, hfault, h]
      · exact fun _ => List.drop_one.symm
  | some f =>
      simp only [transfer, h, hfault, Node.append]
      refine ⟨honly, ⟨_, hinsert, by simp⟩, fun _ => hinsert, by simp [h], ?_, by simp⟩
      simp [goesWell_one, hfault]

/-- One transfer. -/
theorem wrote_transfer {d : Disk} {place : List String} (h : d.tree.HoldsFile place)
    (bytes : List UInt8) :
    d.Wrote place bytes 1 (d.transfer place bytes).1 (d.transfer place bytes).2 := by
  obtain ⟨node, hnode, hne⟩ := h
  cases node with
  | directory => exact absurd rfl hne
  | file old => exact wrote_file hnode bytes
  | fullDevice => exact wrote_device hnode bytes

section

variable {d d' d'' : Disk} {place : List String} {bytes more : List UInt8} {m n : Nat}
  {r : Except SystemError Unit}

/-- A device is one after transfers only if it was one before. -/
theorem Wrote.device_iff (h : d.Wrote place bytes n r d')
    (hopen : d.tree.HoldsFile place) :
    d'.tree.node? place = some .fullDevice ↔
      d.tree.node? place = some .fullDevice := by
  refine ⟨fun hdevice => ?_, h.device⟩
  obtain ⟨node, hnode, hne⟩ := hopen
  cases node with
  | directory => exact absurd rfl hne
  | fullDevice => exact hnode
  | file old =>
      obtain ⟨new, hnew, -⟩ := h.content old hnode
      rw [hnew] at hdevice
      cases hdevice

/-- Transfers that go well, and then others. -/
theorem Wrote.trans (h : d.Wrote place bytes m (.ok ()) d')
    (hopen : d.tree.HoldsFile place) (h' : d'.Wrote place more n r d'') :
    d.Wrote place (bytes ++ more) (m + n) r d'' where
  onlyAt := h.onlyAt.trans h'.onlyAt
  holdsFile := h'.holdsFile
  device := fun hdevice => h'.device (h.device hdevice)
  content := by
    intro old hold
    obtain ⟨mid, hmid, -, heq⟩ := h.content old hold
    rw [heq rfl] at hmid
    rw [← List.append_assoc]
    exact h'.content _ hmid
  ok_iff := by
    obtain ⟨hwell, hdevice⟩ := h.ok_iff.mp rfl
    rw [h'.ok_iff, goesWell_add (h.faults rfl), h.device_iff hopen]
    constructor
    · rintro ⟨hwell', hdevice'⟩
      exact ⟨⟨hwell, hwell'⟩, fun hd => by rw [hdevice hd, hdevice' hd]; rfl⟩
    · rintro ⟨⟨-, hwell'⟩, hboth⟩
      exact ⟨hwell', fun hd => (List.append_eq_nil_iff.mp (hboth hd)).2⟩
  faults := by
    intro hr
    rw [h'.faults hr, h.faults rfl, List.drop_drop]

/-- A transfer that has failed decides the matter, whatever else was to be written. -/
theorem Wrote.of_error {e : SystemError} (h : d.Wrote place bytes m (.error e) d')
    (more : List UInt8) (n : Nat) :
    d.Wrote place (bytes ++ more) (m + n) (.error e) d' where
  onlyAt := h.onlyAt
  holdsFile := h.holdsFile
  device := h.device
  content := by
    intro old hold
    obtain ⟨new, hnew, hprefix, -⟩ := h.content old hold
    refine ⟨new, hnew, ?_, by simp⟩
    rw [← List.append_assoc]
    exact hprefix.trans (List.prefix_append _ _)
  ok_iff := by
    constructor
    · simp
    · rintro ⟨hwell, hdevice⟩
      refine absurd (h.ok_iff.mpr ⟨hwell.mono (Nat.le_add_right m n), fun hd => ?_⟩)
        (by simp)
      exact (List.append_eq_nil_iff.mp (hdevice hd)).1
  faults := by simp

/-- Closing after a failure: it stays a failure. -/
theorem Wrote.close {e : SystemError} (h : d.Wrote place bytes m (.error e) d')
    (h' : d'.Wrote place [] 1 r d'') (e' : SystemError) :
    d.Wrote place bytes (m + 1) (.error e') d'' where
  onlyAt := h.onlyAt.trans h'.onlyAt
  holdsFile := h'.holdsFile
  device := fun hdevice => h'.device (h.device hdevice)
  content := by
    intro old hold
    obtain ⟨mid, hmid, hprefix, -⟩ := h.content old hold
    obtain ⟨new, hnew, hprefix', -⟩ := h'.content mid hmid
    rw [List.append_nil] at hprefix'
    exact ⟨new, hnew, hprefix'.trans hprefix, by simp⟩
  ok_iff := by
    constructor
    · simp
    · rintro ⟨hwell, hdevice⟩
      exact absurd (h.ok_iff.mpr ⟨hwell.mono (Nat.le_succ m), hdevice⟩) (by simp)
  faults := by simp

end

end Disk

end TapeMips.Files

namespace TapeMips.CommandLine

open Files Script

section

variable {ε α β : Type} {d d' d'' : Disk}

theorem Yields.then {x : Attempt ε (List String) α} {f : α → Attempt ε (List String) β}
    {a : α} {r : Except ε β} (h : x.run.Yields d (.ok a) d')
    (h' : (f a).run.Yields d' r d'') : (x >>= f).run.Yields d r d'' :=
  h.bind h'

theorem Yields.skip {x : Attempt ε (List String) α} {e : ε}
    (h : x.run.Yields d (.error e) d') (f : α → Attempt ε (List String) β) :
    (x >>= f).run.Yields d (.error e) d' :=
  h.bind (yields_pure _ d')

theorem Yields.then_hangs {x : Attempt ε (List String) α}
    {f : α → Attempt ε (List String) β} {a : α} (h : x.run.Yields d (.ok a) d)
    (h' : (f a).run.Hangs d) : (x >>= f).run.Hangs d :=
  h.bind_hangs h'

theorem Hangs.then {x : Attempt ε (List String) α} (h : x.run.Hangs d)
    (f : α → Attempt ε (List String) β) : (x >>= f).run.Hangs d :=
  h.bind _

theorem Yields.uncaught {x : Attempt ε (List String) α} {a : α}
    (h : x.run.Yields d (.ok a) d') (handler : ε → Attempt ε (List String) α) :
    (tryCatch x handler).run.Yields d (.ok a) d' :=
  h.bind (yields_pure _ d')

theorem Yields.caught {x : Attempt ε (List String) α} {e : ε} {r : Except ε α}
    {handler : ε → Attempt ε (List String) α} (h : x.run.Yields d (.error e) d')
    (h' : (handler e).run.Yields d' r d'') : (tryCatch x handler).run.Yields d r d'' :=
  h.bind h'

theorem Yields.finally_ok {x : Attempt ε (List String) α}
    {last : Attempt ε (List String) β} {r : Except ε α} {b : β}
    (h : x.run.Yields d r d') (h' : last.run.Yields d' (.ok b) d'') :
    (tryFinally x last).run.Yields d r d'' := by
  cases r with
  | ok a =>
      refine Script.Yields.bind (a := .ok (a, b)) ?_ (yields_pure _ d'')
      refine Script.Yields.bind (a := (.ok a, .ok b)) (h.bind ?_) (yields_pure _ d'')
      exact h'.bind (yields_pure _ d'')
  | error e =>
      refine Script.Yields.bind (a := .error e) ?_ (yields_pure _ d'')
      refine Script.Yields.bind (a := (.error e, .ok b)) (h.bind ?_)
        (yields_pure _ d'')
      exact h'.bind (yields_pure _ d'')

theorem Yields.finally_error {x : Attempt ε (List String) α}
    {last : Attempt ε (List String) β} {r : Except ε α} {e : ε}
    (h : x.run.Yields d r d') (h' : last.run.Yields d' (.error e) d'') :
    (tryFinally x last).run.Yields d (.error e) d'' := by
  refine Script.Yields.bind (a := .error e) ?_ (yields_pure _ d'')
  cases r with
  | ok a =>
      refine Script.Yields.bind (a := (.ok a, .error e)) (h.bind ?_)
        (yields_pure _ d'')
      exact h'.bind (yields_pure _ d'')
  | error e' =>
      refine Script.Yields.bind (a := (.error e', .error e)) (h.bind ?_)
        (yields_pure _ d'')
      exact h'.bind (yields_pure _ d'')

theorem yields_lift {call : SystemCall (List String) α} {a : α}
    (h : d.answer call = (some a, d')) :
    (ExceptT.lift (request call) : Attempt ε (List String) α).run.Yields d
      (.ok a) d' :=
  (yields_request h).bind (yields_pure _ d')

theorem hangs_demand {refused : SystemError → ε}
    {call : SystemCall (List String) (Except SystemError α)}
    (h : d.answer call = (none, d)) : (demand refused call).run.Hangs d :=
  Hangs.then ((hangs_request h).bind _) _

theorem yields_demand {refused : SystemError → ε}
    {call : SystemCall (List String) (Except SystemError α)} {r : Except SystemError α}
    (h : d.answer call = (some r, d')) :
    (demand refused call).run.Yields d (r.mapError refused) d' := by
  refine Yields.then (yields_lift h) ?_
  cases r with
  | ok a => exact yields_pure _ d'
  | error e => exact yields_pure _ d'

end

/-! ## Writing the program

Characters are collected and written in portions, and any of these writes may
fail. What has come to the file is then the beginning of the text, so that is
what is carried along, with the number of transfers that have been made. -/

theorem join_portions (held : String) (pieces : List String) :
    String.join (portions held pieces) = held ++ String.join pieces := by
  induction pieces generalizing held with
  | nil => rw [portions, String.join_cons, String.join_nil]
  | cons piece rest ih =>
      rw [portions, String.join_cons, ← String.append_assoc]
      split
      · rw [String.join_cons, ih, String.empty_append]
      · rw [ih]

/-- What `n` transfers do to an open file, as an attempt that makes them. -/
def Writes (x : Attempt Uncompiled (List String) Unit) (d : Disk) (place : List String)
    (bytes : List UInt8) (n : Nat) (r : Except SystemError Unit) (d' : Disk) : Prop :=
  x.run.Yields d (r.mapError .system) d' ∧ d.Wrote place bytes n r d'

section

variable {d : Disk} {place : List String}

/-- A request that is answered by one transfer. -/
theorem writes_demand {call : SystemCall (List String) (Except SystemError Unit)}
    {bytes : List UInt8} (h : d.tree.HoldsFile place)
    (hcall : d.answer call =
      (some (d.transfer place bytes).1, (d.transfer place bytes).2)) :
    ∃ r d', Writes (demand .system call) d place bytes 1 r d' :=
  ⟨_, _, yields_demand hcall, Disk.wrote_transfer h bytes⟩

theorem writes_write (h : d.tree.HoldsFile place) (bytes : List UInt8) :
    ∃ r d', Writes (demand .system (.write place bytes)) d place bytes 1 r d' :=
  writes_demand h rfl

theorem writes_close (h : d.tree.HoldsFile place) :
    ∃ r d', Writes (demand .system (.close place)) d place [] 1 r d' :=
  writes_demand h rfl

theorem writes_writeAll (texts : List String) (h : d.tree.HoldsFile place) :
    ∃ r d', Writes (writeAll place texts) d place
      (Text.Utf8.encode (String.join texts)) texts.length r d' := by
  induction texts generalizing d with
  | nil => exact ⟨.ok (), d, yields_pure _ d, Disk.wrote_nothing h⟩
  | cons text rest ih =>
      rw [String.join_cons, Text.Utf8.encode_append, List.length_cons, Nat.add_comm]
      obtain ⟨r, d', hfirst, hwrote⟩ := writes_write h (Text.Utf8.encode text)
      cases r with
      | error e => exact ⟨.error e, d', Yields.skip hfirst _, hwrote.of_error _ _⟩
      | ok _ =>
          obtain ⟨r, d'', hrest, hwrote'⟩ := ih hwrote.holdsFile
          exact ⟨r, d'', Yields.then hfirst hrest, hwrote.trans h hwrote'⟩

theorem writes_generateTo {source : String} {c : Compilation}
    (hc : compile source = .ok c) (h : d.tree.HoldsFile place) :
    ∃ r d', Writes (generateTo source place) d place (Text.Utf8.encode c.assembly)
      (portions "" (Codegen.generate source).pieces).length r d' := by
  obtain ⟨htext, hfailure⟩ := Codegen.generate_of_compile hc
  obtain ⟨r, d', hall, hwrote⟩ :=
    writes_writeAll (portions "" (Codegen.generate source).pieces) h
  have hjoin : String.join (portions "" (Codegen.generate source).pieces) =
      c.assembly := by
    rw [join_portions, String.empty_append, ← htext]
    rfl
  rw [hjoin] at hwrote
  refine ⟨r, d', ?_, hwrote⟩
  cases r with
  | error e => exact Yields.skip hall _
  | ok _ =>
      refine Yields.then hall ?_
      simp only [hfailure]
      exact yields_pure _ d'

/-- The file is closed whatever has become of it, so closing counts as one
transfer more. -/
theorem writes_withOutput {p : Path} {t : Tree} {bytes : List UInt8} {n : Nat}
    {body : List String → Attempt Uncompiled (List String) Unit}
    (hopen : d.tree.openToWrite p = .ok (place, t))
    (hbody : ∃ r d', Writes (body place) { d with tree := t } place bytes n r d') :
    ∃ r d', (withOutput p body).run.Yields d (r.mapError .system) d' ∧
      Disk.Wrote { d with tree := t } place bytes (n + 1) r d' := by
  have hstart : (demand Uncompiled.system (.openToWrite p)).run.Yields d (.ok place)
      { d with tree := t } :=
    yields_demand (r := .ok place) (by simp only [Disk.answer, hopen])
  have hfile : t.HoldsFile place := (Tree.openToWrite_ok hopen).holdsFile
  obtain ⟨r, d', hwritten, hwrote⟩ := hbody
  obtain ⟨r', d'', hclosed, hlast⟩ := writes_close hwrote.holdsFile
  cases r' with
  | error e =>
      refine ⟨.error e, d'',
        Yields.then hstart (Yields.finally_error hwritten hclosed), ?_⟩
      cases r with
      | error _ => exact hwrote.close hlast e
      | ok _ => simpa using hwrote.trans hfile hlast
  | ok _ =>
      refine ⟨r, d'', Yields.then hstart (Yields.finally_ok hwritten hclosed), ?_⟩
      cases r with
      | error e => exact hwrote.close hlast e
      | ok _ => simpa using hwrote.trans hfile hlast

end

/-- How many writes and closings there are when the program of a source is written. -/
def transfers (source : String) : Nat :=
  (portions "" (Codegen.generate source).pieces).length + 1

/-- What writing the program of a source comes to. -/
structure CompiledTo (d : Disk) (output : Path) (source : String) (c : Compilation)
    (r : Except SystemError Unit) (d' : Disk) : Prop where
  sameBut : d.tree.SameBut d'.tree output
  ok_iff : r = .ok () ↔ d.tree.Writable output ∧ d.GoesWell (transfers source)
  program : r = .ok () →
    d'.tree.find output = .ok (some (.file (Text.Utf8.encode c.assembly)))
  /-- Nothing is left at the output, or it was never opened and cannot be taken
  away. -/
  removed : ∀ e, r = .error e → d'.tree.find output = .ok none ∨
    d' = d ∧ (d.tree.find output = .ok (some .directory) ∨
      d.tree.walk output = .nameTooLong)

section

variable {d : Disk} {output : Path}

theorem remove_of_unlink {t : Tree} (h : d.tree.unlink output = .ok t) :
    (remove output).run.Yields d (.ok ()) { d with tree := t } := by
  have hanswer : d.answer (.unlink output) =
      (some (.ok ()), { d with tree := t }) := by
    simp only [Disk.answer, h]
  exact Yields.then (yields_lift hanswer) (yields_pure _ _)

theorem remove_of_refused {e : SystemError} (h : d.tree.unlink output = .error e) :
    ∃ r, (remove output).run.Yields d r d ∧ ∀ e', r = .error e' → e' = .system e := by
  have hanswer : d.answer (.unlink output) = (some (.error e), d) := by
    simp only [Disk.answer, h]
  cases e with
  | noSuchFile path =>
      exact ⟨.ok (), Yields.then (yields_lift hanswer) (yields_pure _ _), by simp⟩
  | _ => exact ⟨_, Yields.then (yields_lift hanswer) (yields_pure _ _), by simp⟩

theorem yields_validate {source : String} (h : Source.malformed? source = none)
    (d : Disk) : (validate source).run.Yields d (.ok ()) d := by
  rw [validate, h]
  exact yields_pure _ d

/-- A failure of the system stays one when the output has been taken away, and
also when that is refused. -/
theorem compileTo_of_failure {source : String} {e : SystemError} {d' d'' : Disk}
    {r : Except Uncompiled Unit} (hvalid : Source.malformed? source = none)
    (h : (withOutput output (generateTo source)).run.Yields d (.error (.system e)) d')
    (hremove : (remove output).run.Yields d' r d'')
    (hr : ∀ e', r = .error e' → ∃ s, e' = .system s) :
    ∃ s, (compileTo output source).run.Yields d (.error (.system s)) d'' := by
  cases r with
  | ok _ =>
      refine ⟨e, Yields.then (yields_validate hvalid d) (Yields.caught h ?_)⟩
      exact Yields.then hremove (yields_pure _ d'')
  | error e' =>
      obtain ⟨s, rfl⟩ := hr e' rfl
      exact ⟨s, Yields.then (yields_validate hvalid d)
        (Yields.caught h (Yields.skip hremove _))⟩

theorem malformed?_of_compile {source : String} {c : Compilation}
    (hc : compile source = .ok c) : Source.malformed? source = none :=
  (Source.malformed?_eq_none_iff source).mpr (Codegen.depth_of_compile hc)

/-- An output that could not be opened: nothing was made of it. -/
theorem compiledTo_of_refused {source : String} {c : Compilation} {e : SystemError}
    (hc : compile source = .ok c) (h : d.tree.openToWrite output = .error e) :
    ∃ r d', (compileTo output source).run.Yields d (r.mapError .system) d' ∧
      CompiledTo d output source c r d' := by
  have hrefused : (demand Uncompiled.system (.openToWrite output)).run.Yields d
      (.error (.system e)) d :=
    yields_demand (r := .error e) (by simp only [Disk.answer, h])
  obtain ⟨hwritable, hkept⟩ := Tree.openToWrite_error h
  obtain ⟨r, hremove, hr⟩ : ∃ r, (remove output).run.Yields d r d ∧
      ∀ e', r = .error e' → ∃ s, e' = .system s := by
    rcases hkept with ⟨hunlink, -⟩ | ⟨hunlink, -⟩ | ⟨hunlink, -⟩ <;>
    · obtain ⟨r, hremove, hr⟩ := remove_of_refused hunlink
      exact ⟨r, hremove, fun e' he' => ⟨_, hr e' he'⟩⟩
  obtain ⟨s, hrun⟩ :=
    compileTo_of_failure (malformed?_of_compile hc) (Yields.skip hrefused _) hremove hr
  refine ⟨.error s, d, hrun, Tree.SameBut.refl d.tree output, ?_,
    by simp, fun _ _ => ?_⟩
  · simp [hwritable]
  · rcases hkept with ⟨-, hnone⟩ | ⟨-, hdirectory⟩ | ⟨-, hlong⟩
    · exact Or.inl hnone
    · exact Or.inr ⟨rfl, Or.inl hdirectory⟩
    · exact Or.inr ⟨rfl, Or.inr hlong⟩

/-- An output that was opened: it holds the program, or has been taken away. -/
theorem compiledTo_of_opened {source : String} {c : Compilation} {place : List String}
    {t : Tree} (hc : compile source = .ok c)
    (h : d.tree.openToWrite output = .ok (place, t)) :
    ∃ r d', (compileTo output source).run.Yields d (r.mapError .system) d' ∧
      CompiledTo d output source c r d' := by
  have hvalid := malformed?_of_compile hc
  have hopened := Tree.openToWrite_ok h
  obtain ⟨r, d', hrun, hwrote⟩ :=
    writes_withOutput h (writes_generateTo hc hopened.holdsFile)
  have honly : d.tree.OnlyAt d'.tree place := hopened.onlyAt.trans hwrote.onlyAt
  have hwalk : d'.tree.walk output = .found (.within place) := by
    rw [← hopened.walk]
    exact (honly.sameDirectories hopened.not_directory
      hwrote.holdsFile.not_directory).walk output
  have hprogram : Text.Utf8.encode c.assembly ≠ [] := fun hnil =>
    Codegen.assembly_ne_empty hc ((Text.Utf8.encode_eq_nil_iff _).mp hnil)
  have hok : r = .ok () ↔ d.tree.Writable output ∧ d.GoesWell (transfers source) := by
    rw [hwrote.ok_iff, and_comm]
    refine and_congr ?_ Iff.rfl
    rcases hopened.empty_or_device with ⟨hwritable, hfile⟩ | ⟨hwritable, hdevice⟩
    · simp [hwritable, hfile]
    · simp [hwritable, hdevice, hprogram]
  cases r with
  | ok _ =>
      refine ⟨.ok (), d',
        Yields.then (yields_validate hvalid d) (Yields.uncaught hrun _),
        honly.sameBut hopened.walk, hok, fun _ => ?_, by simp⟩
      rcases hopened.empty_or_device with ⟨-, hfile⟩ | ⟨hwritable, -⟩
      · obtain ⟨new, hnew, -, heq⟩ := hwrote.content [] hfile
        rw [Tree.find, hwalk]
        rw [heq rfl] at hnew
        exact congrArg Except.ok hnew
      · exact absurd (hok.mp rfl).1 hwritable
  | error e =>
      obtain ⟨t', hunlink, hnone, honly'⟩ :=
        Tree.unlink_of_holdsFile hwalk hwrote.holdsFile
      obtain ⟨s, hfailed⟩ :=
        compileTo_of_failure hvalid hrun (remove_of_unlink hunlink) (by simp)
      refine ⟨.error s, _, hfailed, (honly.trans honly').sameBut hopened.walk, ?_,
        by simp, fun _ _ => Or.inl hnone⟩
      rw [← hok]
      simp

/-- Writing the program of a source comes to an end on every disk. -/
theorem compileTo_yields {source : String} {c : Compilation}
    (hc : compile source = .ok c) (d : Disk) (output : Path) :
    ∃ r d', (compileTo output source).run.Yields d (r.mapError .system) d' ∧
      CompiledTo d output source c r d' := by
  cases h : d.tree.openToWrite output with
  | error e => exact compiledTo_of_refused hc h
  | ok opened => exact compiledTo_of_opened hc h

end

end TapeMips.CommandLine
