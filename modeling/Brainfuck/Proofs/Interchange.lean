/-
Buffers, byte streams and text streams are interchangeable.

- `Source.Holds s d`: the source has the bytes `d` left, whatever kind of source it is. A text stream has the bytes left
  of the character begun, and those of the characters to come.
- `Holds.readings`: a source that holds `d` gives the bytes of `d` in order, and then the end, for ever.
- `Sink.Took t d`: the sink was empty and has taken the bytes `d`; a text stream has taken one code point for each.
- `Origin.ofBytes`, `Origin.ofText`: what can be handed over for some bytes, or for a text.
- `backends_interchange`: all of them read the same, and every program comes to the same on any of them, with any of the
  sinks. A text wrapper that only its reader would keep is not among them (`unheld_wrapper_is_closed`).
-/
import Brainfuck.Origin
import Brainfuck.Proofs.Streams

namespace Brainfuck

/-! ## Sources -/

namespace Source

/-- the source has these bytes left -/
inductive Holds : Source → List UInt8 → Prop where
  | buffer (d : List UInt8) : Holds (.buffer d) d
  | stream (d : List UInt8) : Holds (.stream d) d
  | textStream (cs : List Char) (pending : List UInt8) : Holds (.textStream cs pending) (pending ++ Utf8.encode cs)

variable {s : Source} {b : UInt8} {d : List UInt8}

theorem Holds.next_nil (h : s.Holds []) : s.next = (.ended, s) := by
  generalize hd : ([] : List UInt8) = d at h
  cases h with
  | buffer | stream => subst hd; rfl
  | textStream cs pending =>
    obtain ⟨rfl, hcs⟩ := List.append_eq_nil_iff.1 hd.symm
    cases cs with
    | nil => rfl
    | cons c cs => exact absurd (List.append_eq_nil_iff.1 hcs).1 String.utf8EncodeChar_ne_nil

theorem Holds.next_cons (h : s.Holds (b :: d)) : ∃ rest, s.next = (.byte b, rest) ∧ rest.Holds d := by
  generalize hd : b :: d = l at h
  cases h with
  | buffer => subst hd; exact ⟨_, rfl, .buffer d⟩
  | stream => subst hd; exact ⟨_, rfl, .stream d⟩
  | textStream cs pending =>
    cases pending with
    | cons b' pending =>
      obtain ⟨rfl, rfl⟩ := List.cons.inj hd
      exact ⟨_, rfl, .textStream cs pending⟩
    | nil =>
      cases cs with
      | nil => cases hd
      | cons c cs =>
        -- the first byte of the next character is handed out, the others are pending
        obtain ⟨b', pending, hc⟩ := List.exists_cons_of_ne_nil (String.utf8EncodeChar_ne_nil (c := c))
        have hencode : Utf8.encode (c :: cs) = b' :: (pending ++ Utf8.encode cs) := by
          simp only [Utf8.encode, List.flatMap_cons, Utf8.encodeChar, hc, List.cons_append]
        rw [List.nil_append, hencode] at hd
        obtain ⟨rfl, rfl⟩ := List.cons.inj hd
        refine ⟨.textStream cs pending, ?_, .textStream cs pending⟩
        simp only [Source.next, Utf8.encodeChar, hc, take]

/-- the bytes come in order, and then the end for ever -/
theorem Holds.readings (h : s.Holds d) (n : Nat) :
    ByteSource.readings n s = (d.take n).map .byte ++ List.replicate (n - d.length) .ended := by
  induction n generalizing s d with
  | zero => simp [ByteSource.readings]
  | succ n ih =>
    cases d with
    | nil =>
      have hnext : ByteSource.next s = (.ended, s) := h.next_nil
      rw [ByteSource.readings, hnext, ih h]
      simp [List.replicate_succ]
    | cons b d =>
      obtain ⟨rest, hread, hrest⟩ := h.next_cons
      have hnext : ByteSource.next s = (.byte b, rest) := hread
      rw [ByteSource.readings, hnext, ih hrest]
      simp

/-- sources that hold the same bytes are read alike -/
theorem sourcesAlike_holds : SourcesAlike fun s s' : Source => ∃ d, s.Holds d ∧ s'.Holds d where
  next := by
    rintro s s' reading rest ⟨d, h, h'⟩ hread
    cases d with
    | nil =>
      obtain ⟨rfl, rfl⟩ := Prod.mk.inj (h.next_nil.symm.trans hread)
      exact ⟨s', h'.next_nil, [], h, h'⟩
    | cons b d =>
      obtain ⟨r, hnext, hr⟩ := h.next_cons
      obtain ⟨r', hnext', hr'⟩ := h'.next_cons
      obtain ⟨rfl, rfl⟩ := Prod.mk.inj (hnext.symm.trans hread)
      exact ⟨r', hnext', d, hr, hr'⟩

end Source

/-! ## Sinks -/

namespace Sink

/-- the sink was empty and has taken these bytes -/
inductive Took : Sink → List UInt8 → Prop where
  | buffer (d : List UInt8) : Took (.buffer d.toArray) d
  | stream (d : List UInt8) : Took (.stream d.toArray) d
  | wrapped (d : List UInt8) : Took (.wrapped d.toArray) d
  | textStream {d : List UInt8} {data : Array CodePoint} : data.toList.map CodePoint.toNat = d.map UInt8.toNat →
      Took (.textStream data) d

variable {t : Sink} {d : List UInt8}

theorem Took.write (h : t.Took d) (b : UInt8) : ∃ rest, ByteSink.write b t = (none, rest) ∧ rest.Took (d ++ [b]) := by
  cases h with
  | buffer =>
    refine ⟨.buffer (d ++ [b]).toArray, ?_, .buffer _⟩
    simp only [ByteSink.write, put, push_byte, List.push_toArray]
  | stream =>
    refine ⟨.stream (d ++ [b]).toArray, ?_, .stream _⟩
    simp only [ByteSink.write, put, push_byte, List.push_toArray]
  | wrapped =>
    refine ⟨.wrapped (d ++ [b]).toArray, ?_, .wrapped _⟩
    simp only [ByteSink.write, put, push_byte, List.push_toArray]
  | @textStream _ data hdata =>
    refine ⟨.textStream (data.push (.ofNat b.toNat)), put_textStream b data, .textStream ?_⟩
    have hb := b.toNat_lt
    have hcode : (CodePoint.ofNat b.toNat).toNat = b.toNat := CodePoint.toNat_ofNat (by omega)
    simp [hdata, hcode]

theorem Took.flush (h : t.Took d) : ByteSink.flush t = (none, t) := by
  cases h <;> rfl

theorem Took.reliable (h : t.Took d) : Reliable t := by
  refine ⟨fun t => ∃ d, t.Took d, ⟨d, h⟩, ?_⟩
  rintro t ⟨d, h⟩
  refine ⟨fun b => ?_, ?_, ?_⟩
  · obtain ⟨rest, hwrite, hrest⟩ := h.write b
    rw [hwrite]
    exact ⟨rfl, _, hrest⟩
  · rw [h.flush]
  · rw [h.flush]
    exact ⟨d, h⟩

/-- sinks that have taken the same bytes take the same bytes again -/
theorem sinksAlike_took : SinksAlike fun t t' : Sink => ∃ d, t.Took d ∧ t'.Took d := by
  apply SinksAlike.of_success
  · rintro t t' b ⟨d, h, h'⟩
    obtain ⟨r, hr, htook⟩ := h.write b
    obtain ⟨r', hr', htook'⟩ := h'.write b
    exact ⟨r, r', hr, hr', d ++ [b], htook, htook'⟩
  · rintro t t' ⟨d, h, h'⟩
    exact ⟨t, t', h.flush, h'.flush, d, h, h'⟩

/-- the sinks that can be handed over empty and do not fail -/
def empties : List Sink := [.buffer #[], .stream #[], .wrapped #[], .textStream #[]]

theorem took_of_mem_empties (h : t ∈ empties) : t.Took [] := by
  simp only [empties, List.mem_cons, List.not_mem_nil, or_false] at h
  rcases h with rfl | rfl | rfl | rfl
  · exact .buffer []
  · exact .stream []
  · exact .wrapped []
  · exact .textStream rfl

end Sink

/-! ## What is handed over -/

namespace Origin

/-- what can be handed over for some bytes: the bytes, a buffer, a byte stream, or a text wrapper over one; a source may
have been made of the stream before -/
def ofBytes (d : List UInt8) : List Origin :=
  [.bytes d, .ready (.buffer d), .handle (.bytes d), .ready (Handle.bytes d).source, .handle (.wrapper d true),
    .ready (Handle.wrapper d true).source]

/-- what can be handed over for a text: the text, a buffer, or a text stream -/
def ofText (s : String) : List Origin :=
  [.text s, .ready (.buffer (Utf8.encode s.toList)), .handle (.text s.toList), .ready (Handle.text s.toList).source]

/-- the origin was made of these bytes, or of a text that they encode -/
def Gives (o : Origin) (d : List UInt8) : Prop := o ∈ ofBytes d ∨ ∃ s : String, Utf8.encode s.toList = d ∧ o ∈ ofText s

theorem Gives.holds {o : Origin} {d : List UInt8} (h : o.Gives d) : o.source.Holds d := by
  rcases h with h | ⟨s, rfl, h⟩
  · simp only [ofBytes, List.mem_cons, List.not_mem_nil, or_false] at h
    rcases h with rfl | rfl | rfl | rfl | rfl | rfl
    · exact .buffer d
    · exact .buffer d
    · exact .stream d
    · exact .stream d
    · exact .stream d
    · exact .stream d
  · simp only [ofText, List.mem_cons, List.not_mem_nil, or_false] at h
    rcases h with rfl | rfl | rfl | rfl
    · exact .buffer _
    · exact .buffer _
    · exact .textStream s.toList []
    · exact .textStream s.toList []

end Origin

/-- what is seen of one execution on each of two backends: the same result, the same machine, and the same bytes
written -/
structure SameBehaviour (r r' : Result × Session Source Sink) : Prop where
  result : r'.1 = r.1
  last : r'.2.last.map Machine.bare = r.2.last.map Machine.bare
  written : ∃ d, r.2.sink.Took d ∧ r'.2.sink.Took d

/-- **Input and output backends are interchangeable.** Whatever was handed over for some bytes gives them in order, and
then the end for ever. Every program comes to the same result, the same last machine and the same bytes written on any
two of them, and on any two of the sinks. -/
theorem backends_interchange (d : List UInt8) (o : Origin) (ho : o.Gives d) :
    (∀ n, ByteSource.readings n o.source = (d.take n).map .byte ++ List.replicate (n - d.length) .ended) ∧
      ∀ o', Origin.Gives o' d → ∀ t ∈ Sink.empties, ∀ t' ∈ Sink.empties, ∀ (config : Config) (job : Job), job.Parsed →
        ∀ u, SameBehaviour ((Session.start config o.feed t).execute u job)
          ((Session.start config o'.feed t').execute u job) := by
  refine ⟨ho.holds.readings, fun o' ho' t ht t' ht' config job hjob u => ?_⟩
  have hsource : ∃ d, Source.Holds (Session.start config o.feed t).feed.source d ∧
      Source.Holds (Session.start config o'.feed t').feed.source d := by
    simp only [Session.start, Origin.source_feed]
    exact ⟨d, ho.holds, ho'.holds⟩
  have hsink : ∃ d, Sink.Took t d ∧ Sink.Took t' d := ⟨[], Sink.took_of_mem_empties ht, Sink.took_of_mem_empties ht'⟩
  have hconfig : (Session.start config o'.feed t').config = (Session.start config o.feed t).config := rfl
  have hboth := Session.execute_alike Source.sourcesAlike_holds Sink.sinksAlike_took hconfig hsource hsink hjob u
  generalize (Session.start config o.feed t).execute u job = r at hboth ⊢
  generalize (Session.start config o'.feed t').execute u job = r' at hboth ⊢
  cases hboth with
  | unparsed => exact ⟨rfl, rfl, hsink⟩
  | ran _ halike => exact ⟨rfl, congrArg some halike.bare_eq, halike.sink⟩

/-- a text of two characters and three bytes, as a text stream and as its bytes in a wrapper that is kept -/
theorem backends_interchange_two_characters :
    (Origin.handle (.text ['a', 'é'])).Gives [97, 0xC3, 0xA9] ∧
      ByteSource.readings 4 (Origin.handle (.text ['a', 'é'])).source =
        [.byte 97, .byte 0xC3, .byte 0xA9, .ended] ∧
      (Origin.handle (.wrapper [97, 0xC3, 0xA9] true)).Gives [97, 0xC3, 0xA9] ∧
      SameBehaviour
        ((Session.start default (Origin.handle (.text ['a', 'é'])).feed (.textStream #[])).execute 9
          (.script (.text ",.,.")))
        ((Session.start default (Origin.handle (.wrapper [97, 0xC3, 0xA9] true)).feed (.buffer #[])).execute 9
          (.script (.text ",.,."))) := by
  have hbytes : Utf8.encode "aé".toList = [97, 0xC3, 0xA9] := by decide
  have htext : (Origin.handle (.text ['a', 'é'])).Gives [97, 0xC3, 0xA9] := .inr ⟨"aé", hbytes, by decide⟩
  have hwrapper : (Origin.handle (.wrapper [97, 0xC3, 0xA9] true)).Gives [97, 0xC3, 0xA9] := .inl (by decide)
  obtain ⟨hread, hsame⟩ := backends_interchange _ _ htext
  refine ⟨htext, hread 4, hwrapper, ?_⟩
  exact hsame _ hwrapper _ (by decide) _ (by decide) default (.script (.text ",.,.")) trivial 9

/-- a text wrapper that only its reader would keep is closed, and gives none of its bytes -/
theorem unheld_wrapper_is_closed :
    ByteSource.readings 3 (Origin.handle (.wrapper [97, 98] false)).source ≠ [.byte 97, .byte 98, .ended] ∧
      ByteSource.readings 3 (Origin.handle (.wrapper [97, 98] false)).source =
        [.failed .closed, .failed .closed, .failed .closed] := by
  decide

end Brainfuck
