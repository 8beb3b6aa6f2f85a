import TapeMips.Proofs.LineEnds
import TapeMips.Proofs.Utf8

/-!
# Compiling from a stream

Two things can go wrong between a stream and a sink. The text that is compiled may
not be the text that is left in the stream, and the program may break off in the
sink.

A reader of bytes works ahead. It fetches a chunk, decodes it as far as whole
characters go, and holds back the bytes of a character that is cut in two and a
carriage return at the very end, which may be half of a line end. So what is still
to be read lies in four places. `Reader.readAll_eq_ok_iff` says how they add up, and
neither fetching nor filling changes the sum: UTF-8 can be decoded in parts
(`Utf8.decode_append`) and line ends can be unified in parts (`Reader.accept_more`).
Skipping some characters takes these from the front and no others, and a stream
holds what it was made from less what has been read (`Stream.Holds.readAll`).

The generator writes as it goes along, and what it has written stays in the sink. It
can stop only at a closing bracket without an open loop. The validator has seen the
whole text before the generator writes its first line, and in a balanced text every
prefix leaves the generator as many open loops as the depth of the validator says
(`exists_feedAll?_take`). So it gets to the end.
-/

namespace TapeMips.Text.Utf8

/-! ## Decoding in parts

A chunk may end inside a character, whose bytes are then kept back. The bytes
in front of these spell whole characters, and behind such bytes the decoder
starts anew. -/

/-- Wherever these bytes stand, the decoder takes this one number from them. -/
def Spells (bytes : List UInt8) (n : Nat) : Prop :=
  ∀ position read rest, decodeFrom false position read (bytes ++ rest) =
    decodeFrom false (position + bytes.length) (n :: read) rest

/-- The bytes spell these numbers, one after the other. -/
inductive Decodes : List UInt8 → List Nat → Prop where
  | nil : Decodes [] []
  | cons {bytes rest : List UInt8} {n : Nat} {ns : List Nat} (first : Spells bytes n)
      (more : Decodes rest ns) : Decodes (bytes ++ rest) (n :: ns)

theorem Decodes.decodeFrom_append {xs : List UInt8} {ns : List Nat} (h : Decodes xs ns)
    (position : Nat) (read : List Nat) (ys : List UInt8) :
    decodeFrom false position read (xs ++ ys) =
      decodeFrom false (position + xs.length) (ns.reverse ++ read) ys := by
  induction h generalizing position read with
  | nil => rfl
  | @cons bytes rest n ns first more ih =>
      rw [List.append_assoc, first, ih, List.length_append, Nat.add_assoc,
        List.reverse_cons, List.append_assoc, List.singleton_append]

theorem spells_one {b : UInt8} (hlead : leadOf false b = .one) :
    Spells [b] b.toNat := by
  intro position read rest
  rw [List.singleton_append, decodeFrom.eq_def]
  simp only [hlead]
  rfl

theorem spells_two {b c : UInt8} (hlead : leadOf false b = .two)
    (hc : isTail c = true) : Spells [b, c] (b.toNat % 32 * 64 + tailBits c) := by
  intro position read rest
  rw [List.cons_append, List.singleton_append, decodeFrom, hlead]
  simp only [hc, Bool.not_true, Bool.false_eq_true, if_false]
  rfl

theorem spells_three {b c d low high : UInt8}
    (hlead : leadOf false b = .three low high) (hc : (low ≤ c && c ≤ high) = true)
    (hd : isTail d = true) :
    Spells [b, c, d] ((b.toNat % 16 * 64 + tailBits c) * 64 + tailBits d) := by
  intro position read rest
  rw [List.cons_append, List.cons_append, List.singleton_append, decodeFrom, hlead]
  simp only [hc, hd, Bool.not_true, Bool.false_eq_true, if_false]
  rfl

theorem spells_four {b c d e low high : UInt8}
    (hlead : leadOf false b = .four low high) (hc : (low ≤ c && c ≤ high) = true)
    (hd : isTail d = true) (he : isTail e = true) :
    Spells [b, c, d, e]
      (((b.toNat % 8 * 64 + tailBits c) * 64 + tailBits d) * 64 + tailBits e) := by
  intro position read rest
  rw [List.cons_append, List.cons_append, List.cons_append,
    List.singleton_append, decodeFrom, hlead]
  simp only [hc, hd, he, Bool.not_true, Bool.false_eq_true, if_false]
  rfl

theorem Decodes.prepend {bytes rest : List UInt8} {n : Nat} {read ns : List Nat}
    (first : Spells bytes n)
    (h : ∃ ms, Decodes rest ms ∧ ns = (n :: read).reverse ++ ms) :
    ∃ ms, Decodes (bytes ++ rest) ms ∧ ns = read.reverse ++ ms := by
  obtain ⟨ms, hms, rfl⟩ := h
  exact ⟨n :: ms, .cons first hms, by simp⟩

theorem decodes_of_decodeFrom {position : Nat} {read ns : List Nat} {xs : List UInt8}
    (h : decodeFrom false position read xs = .ok ns) :
    ∃ ms, Decodes xs ms ∧ ns = read.reverse ++ ms := by
  fun_induction decodeFrom false position read xs with
  | case1 position read =>
      cases h
      exact ⟨[], .nil, (List.append_nil _).symm⟩
  | case2 position read b rest hlead ih =>
      exact Decodes.prepend (spells_one hlead) (ih h)
  | case6 position read b hlead c rest hc ih =>
      exact Decodes.prepend (spells_two hlead (by simpa using hc)) (ih h)
  | case12 position read b low high hlead c d rest hc hd ih =>
      exact Decodes.prepend (spells_three hlead (by simpa using hc)
        (by simpa using hd)) (ih h)
  | case22 position read b low high hlead c d e rest hc hd he ih =>
      exact Decodes.prepend (spells_four hlead (by simpa using hc) (by simpa using hd)
        (by simpa using he)) (ih h)
  | _ => cases h

theorem decodes_of_map {position : Nat} {read : List Nat} {xs : List UInt8}
    {cs : List Char}
    (h : (decodeFrom false position read xs).map (·.map Char.ofNat) = .ok cs) :
    ∃ ms, Decodes xs ms ∧ cs = (read.reverse ++ ms).map Char.ofNat := by
  cases hdecode : decodeFrom false position read xs with
  | error e =>
      rw [hdecode] at h
      cases h
  | ok ns =>
      rw [hdecode] at h
      cases h
      obtain ⟨ms, hms, rfl⟩ := decodes_of_decodeFrom hdecode
      exact ⟨ms, hms, rfl⟩

theorem decode_eq_ok_iff {xs : List UInt8} {cs : List Char} :
    decode xs = .ok cs ↔ ∃ ns, Decodes xs ns ∧ cs = ns.map Char.ofNat := by
  constructor
  · intro h
    exact decodes_of_map h
  · rintro ⟨ns, hns, rfl⟩
    have hdecode := hns.decodeFrom_append 0 [] []
    rw [List.append_nil, List.append_nil] at hdecode
    rw [decode, hdecode, decodeFrom, List.reverse_reverse]
    rfl

theorem Decodes.append {xs ys : List UInt8} {ns ms : List Nat} (hx : Decodes xs ns)
    (hy : Decodes ys ms) : Decodes (xs ++ ys) (ns ++ ms) := by
  induction hx with
  | nil => exact hy
  | cons first _ ih =>
      rw [List.append_assoc, List.cons_append]
      exact .cons first ih

/-- Behind bytes that have been decoded the decoder starts anew. -/
theorem decode_append {xs ys : List UInt8} {cs ds : List Char}
    (hx : decode xs = .ok cs) :
    decode (xs ++ ys) = .ok ds ↔ ∃ es, decode ys = .ok es ∧ ds = cs ++ es := by
  obtain ⟨ns, hns, rfl⟩ := decode_eq_ok_iff.mp hx
  constructor
  · intro h
    rw [decode, hns.decodeFrom_append, List.append_nil] at h
    obtain ⟨ms, hms, rfl⟩ := decodes_of_map h
    rw [List.reverse_reverse, List.map_append]
    exact ⟨_, decode_eq_ok_iff.mpr ⟨ms, hms, rfl⟩, rfl⟩
  · rintro ⟨es, hy, rfl⟩
    obtain ⟨ms, hms, rfl⟩ := decode_eq_ok_iff.mp hy
    exact decode_eq_ok_iff.mpr ⟨ns ++ ms, hns.append hms, by rw [List.map_append]⟩

end TapeMips.Text.Utf8

namespace TapeMips.Text

/-! ## Reading in parts

A chunk may also end between a carriage return and a line feed, and the reader
holds the carriage return back until it knows. Whatever the sizes of the
chunks are, the text is the same. -/

namespace Reader

/-- The carriage return that the reader holds back. -/
def heldText (r : Reader) : List Char := if r.heldReturn then ['\r'] else []

theorem text_with_held (r : Reader) (cs : List Char) :
    (if r.heldReturn then '\r' :: cs else cs) = r.heldText ++ cs := by
  rw [heldText]
  split <;> rfl

/-- A reader reads to the end what it has ready, and then what its bytes decode to. -/
theorem readAll_eq_ok_iff {r : Reader} {text : List Char} :
    r.readAll = .ok text ↔ ∃ cs, Utf8.decode (r.held ++ r.bytes) = .ok cs ∧
      text = r.ready ++ unifyNewlines (r.heldText ++ cs) := by
  rw [readAll, finish]
  cases Utf8.decode (r.held ++ r.bytes) with
  | error e => simp [bind, Except.bind]
  | ok cs =>
      simp only [bind, Except.bind, pure, Except.pure, accept, Except.ok.injEq,
        exists_eq_left']
      simp only [Bool.not_true, Bool.and_false, Bool.false_eq_true, if_false,
        Bool.false_and]
      rw [← text_with_held]
      exact eq_comm

/-- What a chunk hands over and what it leaves for the next add up. -/
theorem accept_more (r : Reader) (cs more : List Char) :
    (r.accept false cs).ready ++ unifyNewlines ((r.accept false cs).heldText ++ more) =
      r.ready ++ unifyNewlines (r.heldText ++ (cs ++ more)) := by
  rw [accept]
  split
  · next hempty =>
      obtain rfl : cs = [] := by simpa using hempty
      rfl
  · rw [text_with_held, ← List.append_assoc r.heldText]
    generalize r.heldText ++ cs = held
    simp only [heldText, Bool.not_false, Bool.true_and, decide_eq_true_eq]
    by_cases hlast : held.getLast? = some '\r'
    · obtain ⟨front, rfl⟩ := List.getLast?_eq_some_iff.mp hlast
      rw [if_pos hlast, if_pos hlast, List.dropLast_concat, List.append_assoc,
        List.append_assoc, List.singleton_append,
        unifyNewlines_append front (fun _ => by simp)]
    · rw [if_neg hlast, if_neg hlast, List.append_assoc, List.nil_append,
        unifyNewlines_append held (absurd · hlast)]

theorem decode_of_decodeBeginning {xs ys held : List UInt8} {cs ds : List Char}
    (h : Utf8.decodeBeginning xs = .ok (cs, held)) :
    Utf8.decode (xs ++ ys) = .ok ds ↔ ∃ es, Utf8.decode (held ++ ys) = .ok es ∧
      ds = cs ++ es := by
  rw [Utf8.decodeBeginning] at h
  cases hdecode : Utf8.decode xs with
  | ok cs' =>
      rw [hdecode] at h
      cases h
      exact Utf8.decode_append hdecode
  | error e =>
      rw [hdecode] at h
      dsimp only at h
      split at h
      · cases hfront : Utf8.decode (xs.take e.position) with
        | error e' =>
            rw [hfront] at h
            cases h
        | ok cs' =>
            rw [hfront] at h
            cases h
            have happend :=
              @Utf8.decode_append _ (xs.drop e.position ++ ys) _ ds hfront
            rwa [← List.append_assoc, List.take_append_drop] at happend
      · cases h

theorem held_accept (r : Reader) (isLast : Bool) (cs : List Char) :
    (r.accept isLast cs).held = r.held := by
  rw [accept]
  split <;> rfl

/-- Fetching a chunk does not change what there is to read. -/
theorem readAll_fetch {r r' : Reader} {wanted : Nat} (h : r.fetch wanted = .ok r')
    (text : List Char) : r'.readAll = .ok text ↔ r.readAll = .ok text := by
  rw [fetch] at h
  cases hdecode :
      Utf8.decodeBeginning (r.held ++ r.bytes.take (r.chunkSize wanted)) with
  | error e =>
      rw [hdecode] at h
      cases h
  | ok p =>
      obtain ⟨cs, held⟩ := p
      rw [hdecode] at h
      cases h
      have hparts : r.held ++ r.bytes = r.held ++ r.bytes.take (r.chunkSize wanted) ++
          r.bytes.drop (r.chunkSize wanted) := by
        rw [List.append_assoc, List.take_append_drop]
      rw [readAll_eq_ok_iff, readAll_eq_ok_iff, held_accept, bytes_accept, hparts]
      constructor
      · rintro ⟨more, hmore, rfl⟩
        refine ⟨cs ++ more, ?_, accept_more _ cs more⟩
        exact (decode_of_decodeBeginning hdecode).mpr ⟨more, hmore, rfl⟩
      · rintro ⟨ds, hds, rfl⟩
        obtain ⟨more, hmore, rfl⟩ := (decode_of_decodeBeginning hdecode).mp hds
        refine ⟨more, hmore, ?_⟩
        symm
        exact accept_more _ cs more

/-- Nothing is left but what is ready. -/
structure Done (r : Reader) : Prop where
  bytes : r.held ++ r.bytes = []
  text : r.heldText = []

theorem Done.readAll {r : Reader} (h : r.Done) : r.readAll = .ok r.ready := by
  refine readAll_eq_ok_iff.mpr ⟨[], by rw [h.bytes]; rfl, ?_⟩
  rw [h.text, List.append_nil, unifyNewlines, List.append_nil]

theorem finish_done {r r' : Reader} (h : r.finish = .ok r') : r'.Done := by
  rw [finish] at h
  cases hdecode : Utf8.decode (r.held ++ r.bytes) with
  | error e =>
      rw [hdecode] at h
      cases h
  | ok cs =>
      rw [hdecode] at h
      cases h
      refine ⟨by rw [held_accept, bytes_accept]; rfl, ?_⟩
      simp [heldText, accept]

theorem readAll_finish {r r' : Reader} (h : r.finish = .ok r') (text : List Char) :
    r'.readAll = .ok text ↔ r.readAll = .ok text := by
  have hready : r.readAll = .ok r'.ready := by
    rw [readAll, h]
    rfl
  rw [(finish_done h).readAll, hready]

/-- Filling does not change what there is to read, and stops with as much ready as
was wanted, or with all. -/
theorem readAll_fill {r r' : Reader} {wanted : Nat} (h : r.fill wanted = .ok r') :
    (wanted ≤ r'.ready.length ∨ r'.Done) ∧
      ∀ text, r'.readAll = .ok text ↔ r.readAll = .ok text := by
  fun_induction Reader.fill r wanted with
  | case1 r hle =>
      cases h
      exact ⟨Or.inl hle, fun _ => Iff.rfl⟩
  | case2 r hlt hbytes => exact ⟨Or.inr (finish_done h), readAll_finish h⟩
  | case3 r hlt hbytes e hfetch => cases h
  | case4 r hlt hbytes r₁ hfetch hshorter ih =>
      obtain ⟨henough, hsame⟩ := ih h
      exact ⟨henough, fun text => (hsame text).trans (readAll_fetch hfetch text)⟩

theorem drop_text {r : Reader} {count : Nat} (h : count ≤ r.ready.length ∨ r.Done)
    {cs : List Char} (hcs : Utf8.decode (r.held ++ r.bytes) = .ok cs) :
    (r.ready ++ unifyNewlines (r.heldText ++ cs)).drop count =
      r.ready.drop count ++ unifyNewlines (r.heldText ++ cs) := by
  rcases h with hle | hdone
  · exact List.drop_append_of_le_length hle
  · rw [hdone.bytes] at hcs
    obtain rfl : [] = cs := Except.ok.inj hcs
    rw [hdone.text, List.append_nil, unifyNewlines, List.append_nil, List.append_nil]

/-- Behind some characters that have been read there is the rest of the text. -/
theorem readAll_skip {r r' : Reader} {count : Nat} (h : r.skip count = .ok r')
    (text : List Char) :
    r'.readAll = .ok text ↔ ∃ whole, r.readAll = .ok whole ∧
      text = whole.drop count := by
  rw [skip] at h
  cases hfill : r.fill count with
  | error e =>
      rw [hfill] at h
      cases h
  | ok r₁ =>
      rw [hfill] at h
      cases h
      obtain ⟨henough, hsame⟩ := readAll_fill hfill
      simp only [← hsame, readAll_eq_ok_iff]
      constructor
      · rintro ⟨cs, hcs, rfl⟩
        exact ⟨_, ⟨cs, hcs, rfl⟩, (drop_text henough hcs).symm⟩
      · rintro ⟨_, ⟨cs, hcs, rfl⟩, rfl⟩
        exact ⟨cs, hcs, drop_text henough hcs⟩

end Reader

end TapeMips.Text

namespace TapeMips.Source.Stream

open Text

theorem readAll_bytes_eq_ok_iff {r : Reader} {text : List Char} :
    (Stream.bytes r).readAll = .ok text ↔ r.readAll = .ok text := by
  rw [readAll]
  cases r.readAll <;> simp [Except.mapError]

theorem readAll_ofBytes_eq_ok_iff {bytes : List UInt8} {text : List Char} :
    (Stream.ofBytes bytes).readAll = .ok text ↔
      ∃ cs, Utf8.decode bytes = .ok cs ∧ text = unifyNewlines cs := by
  rw [ofBytes, readAll_bytes_eq_ok_iff, Reader.readAll_eq_ok_iff]
  rfl

/-- Some characters that have been read are missing from what is read later, and
no others. -/
theorem readAll_skip {s left : Stream} {count : Int} (hcount : 0 ≤ count)
    (h : s.skip count = .ok left) (text : List Char) :
    left.readAll = .ok text ↔ ∃ whole, s.readAll = .ok whole ∧
      text = whole.drop count.toNat := by
  rw [skip.eq_def] at h
  split at h
  · cases h
  · rw [if_neg (by omega)] at h
    cases s with
    | text content =>
        cases h
        simp [readAll, eq_comm]
    | bytes reader =>
        cases hskip : reader.skip count.toNat with
        | error e =>
            simp only [hskip] at h
            cases h
        | ok reader' =>
            simp only [hskip] at h
            cases h
            simp only [readAll_bytes_eq_ok_iff]
            exact Reader.readAll_skip hskip text
    | closed overBytes => cases h
    | failing => cases h

/-- The stream still holds this text: it was made from a text or from bytes, and a
part of it may have been read. -/
inductive Holds : Stream → List Char → Prop where
  | text (text : String) : Holds (.ofText text) text.toList
  | bytes {bytes : List UInt8} {cs : List Char}
      (decoded : Utf8.decode bytes = .ok cs) :
      Holds (.ofBytes bytes) (unifyNewlines cs)
  | rest {s left : Stream} {text : List Char} {count : Int} (whole : Holds s text)
      (nonneg : 0 ≤ count) (skipped : s.skip count = .ok left) :
      Holds left (text.drop count.toNat)

theorem Holds.readAll {s : Stream} {text : List Char} (h : Holds s text) :
    s.readAll = .ok text := by
  induction h with
  | text text => rfl
  | bytes decoded => exact readAll_ofBytes_eq_ok_iff.mpr ⟨_, decoded, rfl⟩
  | rest _ nonneg skipped ih => exact (readAll_skip nonneg skipped _).mpr ⟨_, ih, rfl⟩

end TapeMips.Source.Stream

namespace TapeMips

open Source Codegen

section

variable {stream : Source.Stream}

theorem compileInto_of_unread {failure : ReadFailure}
    (h : stream.readAll = .error failure) (sink : String) :
    compileInto sink stream = ⟨sink, [], .error (.unread failure)⟩ := by
  rw [compileInto, h]

theorem compileInto_of_malformed {cs : List Char} {e : Malformed}
    (h : stream.readAll = .ok cs) (he : malformed? (String.ofList cs) = some e)
    (sink : String) : compileInto sink stream = ⟨sink, [], .error (.malformed e)⟩ := by
  rw [malformed?_eq_some_iff] at he
  rw [compileInto, h]
  simp only [he]

/-- The generator does not stop in a balanced source, so all of its code gets into
the sink. -/
theorem compileInto_of_balanced {cs : List Char} (h : stream.readAll = .ok cs)
    (hcs : malformed? (String.ofList cs) = none) (sink : String) :
    ∃ c, compile (String.ofList cs) = .ok c ∧
      compileInto sink stream =
        ⟨sink ++ c.assembly, [c.remark], .ok c.context⟩ := by
  have hdepth := (malformed?_eq_none_iff _).mp hcs
  refine ⟨_, compile_of_depth hdepth, ?_⟩
  cases hnesting : nestingDepth (String.ofList cs) with
  | error e =>
      rw [(malformed?_eq_some_iff _ e).mpr hnesting] at hcs
      cases hcs
  | ok deepest =>
      obtain ⟨htext, hcontext, hfailure⟩ := generate_of_depth hdepth
      rw [compileInto, h]
      simp only [hnesting, htext, hcontext, hfailure]

/-- In a balanced source the generator gets past every character. -/
theorem exists_feedAll?_take {cs : List Char} (hcs : depthAfter? 0 cs = some 0)
    (n : Nat) : ∃ g, Generator.feedAll? {} (cs.take n) = some g := by
  obtain ⟨d, hd⟩ := exists_depthAfter?_take hcs n
  have hheight := Generator.depthAfter?_eq_map_feedAll? {} (cs.take n)
  rw [show ({} : Generator).openLoops.length = 0 from rfl, hd] at hheight
  obtain ⟨g, hg, -⟩ := Option.map_eq_some_iff.mp hheight.symm
  exact ⟨g, hg⟩

end

/-- What compiling a stream to the end of a sink comes to: all of the program, or
nothing. -/
structure AllOrNothing (sink : String) (stream : Source.Stream) : Prop where
  /-- A device that fails, or bytes that are no text, are an I/O error. -/
  unreadable : ∀ failure, stream.readAll = .error failure →
    failure = .device ∨ (∃ e, failure = .undecodable e) →
    ∃ e, (compileInto sink stream).result = .error e ∧ e.kind = .unreadable ∧
      e.message = "An I/O error kept the source from being read"
  malformed : ∀ cs e, stream.readAll = .ok cs →
    malformed? (String.ofList cs) = some e →
    (compileInto sink stream).result = .error (.malformed e)
  nothing : ∀ e, (compileInto sink stream).result = .error e →
    (compileInto sink stream).sink = sink ∧ (compileInto sink stream).log = []
  all : ∀ cs, stream.readAll = .ok cs → malformed? (String.ofList cs) = none →
    ∃ c, compile (String.ofList cs) = .ok c ∧
      (compileInto sink stream).sink = sink ++ c.assembly ∧
      (compileInto sink stream).result = .ok c.context ∧
      (compileInto sink stream).log = [c.remark]
  /-- When the generator begins to write, no character will stop it. -/
  unstopped : ∀ cs, stream.readAll = .ok cs → malformed? (String.ofList cs) = none →
    (generate (String.ofList cs)).failure = none ∧
      ∀ n, ∃ g, Generator.feedAll? {} (cs.take n) = some g

/-- Compiling a stream writes the whole program and says so, or writes nothing and
says why. -/
theorem compileInto_all_or_nothing (sink : String) (stream : Source.Stream) :
    AllOrNothing sink stream ∧ ∀ text, stream.Holds text →
      stream.readAll = .ok text := by
  refine ⟨⟨?_, ?_, ?_, ?_, ?_⟩, fun text => Stream.Holds.readAll⟩
  · intro failure hread hcause
    rw [compileInto_of_unread hread]
    refine ⟨_, rfl, ?_⟩
    rcases hcause with rfl | ⟨e, rfl⟩
    · exact ⟨rfl, rfl⟩
    · exact ⟨rfl, rfl⟩
  · intro cs e hread he
    rw [compileInto_of_malformed hread he]
  · intro e he
    cases hread : stream.readAll with
    | error failure =>
        rw [compileInto_of_unread hread]
        exact ⟨rfl, rfl⟩
    | ok cs =>
        cases hmalformed : malformed? (String.ofList cs) with
        | some e =>
            rw [compileInto_of_malformed hread hmalformed]
            exact ⟨rfl, rfl⟩
        | none =>
            obtain ⟨c, -, hc⟩ := compileInto_of_balanced hread hmalformed sink
            rw [hc] at he
            cases he
  · intro cs hread hcs
    obtain ⟨c, hcompile, hc⟩ := compileInto_of_balanced hread hcs sink
    rw [hc]
    exact ⟨c, hcompile, rfl, rfl, rfl⟩
  · intro cs hread hcs
    have hdepth := (malformed?_eq_none_iff _).mp hcs
    refine ⟨(generate_of_depth hdepth).2.2, fun n => ?_⟩
    rw [String.toList_ofList] at hdepth
    exact exists_feedAll?_take hdepth n

end TapeMips
