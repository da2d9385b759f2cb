import Kmsrdp.Source.Cliprdr.Channel
import Kmsrdp.Guarantees.StaticReassembly

/-!
# Text from the client's clipboard

The server guesses the encoding of a text from the parity of its length and the places of zero
bytes. A text without NUL has them only in its terminator and in UTF-16 units, so the guess is
right, but for a single ASCII character in UTF-8.
-/
namespace Kmsrdp.Guarantees.ClipboardText
open Library.ByteString Source.Pdu Source.Cliprdr Client.ChannelChunks Guarantees.StaticReassembly
  List UInt8 CliprdrChannel

def utf8Bytes (text : String) : Bytes := text.toList.flatMap String.utf8EncodeChar

inductive Encoding where
  | utf16
  | utf8

def Encoding.body : Encoding → String → Bytes
  | .utf16, text => encodeUnits text ++ u16Le 0
  | .utf8, text => utf8Bytes text ++ [0]

def encodeFormatDataResponse (encoding : Encoding) (text : String) : Bytes :=
  writeHeader cbFormatDataResponse cbResponseOk (encoding.body text).length ++ encoding.body text

theorem utf8EncodeChar_cases (c : Char) :
    String.utf8EncodeChar c = [ofNat c.toNat] ∧ c.toNat < 128 ∨
    2 ≤ (String.utf8EncodeChar c).length ∧ ∀ b ∈ String.utf8EncodeChar c, 128 ≤ b.toNat := by
  have hvalue : c.val.toNat = c.toNat := rfl
  unfold String.utf8EncodeChar
  simp only [hvalue]
  split
  · exact .inl ⟨rfl, by omega⟩
  · right
    split
    · simp [toNat_ofNat']
      omega
    · split
      · simp [toNat_ofNat']
        omega
      · simp [toNat_ofNat']
        omega

theorem utf8EncodeChar_ascii {c : Char} (h : c.toNat < 128) :
    String.utf8EncodeChar c = [ofNat c.toNat] := by
  have hvalue : c.val.toNat = c.toNat := rfl
  unfold String.utf8EncodeChar
  simp only [hvalue]
  rw [if_pos (by omega)]

variable {text : String}

theorem nonzero_of_mem_utf8Bytes (h : '\x00' ∉ text.toList) {b : UInt8} (hb : b ∈ utf8Bytes text) :
    b ≠ 0 := by
  obtain ⟨c, hc, hmem⟩ := mem_flatMap.mp hb
  rintro rfl
  rcases utf8EncodeChar_cases c with ⟨hone, hascii⟩ | ⟨-, hhigh⟩
  · rw [hone, mem_singleton] at hmem
    have hzero := congrArg toNat hmem
    rw [UInt8.toNat_ofNat', UInt8.toNat_zero] at hzero
    obtain rfl : c = '\x00' := Char.toNat_inj.mp (by change c.toNat = 0; omega)
    exact h hc
  · exact absurd (hhigh 0 hmem) (by decide)

theorem ascii_of_utf8Bytes {b : UInt8} (h : utf8Bytes text = [b]) :
    ∃ c : Char, text.toList = [c] ∧ c.toNat < 128 ∧ b = ofNat c.toNat := by
  unfold utf8Bytes at h
  cases htext : text.toList with
  | nil => simp [htext] at h
  | cons c rest =>
    rw [htext, flatMap_cons] at h
    have hlength := congrArg length h
    rw [length_append, length_singleton] at hlength
    have hpos : ∀ c, 0 < (String.utf8EncodeChar c).length := fun c => by
      rcases utf8EncodeChar_cases c with ⟨hone, -⟩ | ⟨htwo, -⟩
      · simp [hone]
      · omega
    cases rest with
    | cons c' rest =>
      have h' := hpos c'
      have h'' := hpos c
      simp only [flatMap_cons, length_append] at hlength
      omega
    | nil =>
      rcases utf8EncodeChar_cases c with ⟨hone, hascii⟩ | ⟨htwo, -⟩
      · rw [hone] at h
        exact ⟨c, rfl, hascii, (singleton_inj.mp h).symm⟩
      · omega

theorem mem_of_mem_evenBytes {front : Bytes}
    (hodd : front.length % 2 = 1)
    {b : UInt8}
    (h : b ∈ evenBytes (front ++ [0])) : b ∈ front := by
  match front with
  | [low] => simpa [evenBytes] using h
  | low :: high :: rest =>
    have hrest : b ∈ low :: evenBytes (rest ++ [0]) := h
    rcases mem_cons.mp hrest with rfl | hmem
    · exact mem_cons_self
    · have hin := mem_of_mem_evenBytes (by simp only [length_cons] at hodd; omega) hmem
      simp [hin]

theorem evenBytes_units (units : List Nat) :
    evenBytes (units.flatMap u16Le ++ [0, 0]) = units.map ofNat ++ [0] := by
  induction units with
  | nil => rfl
  | cons unit rest ih => simp [u16Le, evenBytes, ih]

open Encoding

theorem ne_nil_body (encoding : Encoding) : encoding.body text ≠ [] := by
  cases encoding <;> simp [body, u16Le]

theorem guessesUtf16_utf16 (text : String) : guessesUtf16 (utf16.body text) = true := by
  have heven := even_encodeUnits text
  simp only [guessesUtf16, body, length_append, length_u16Le, Bool.and_eq_true, decide_eq_true_eq,
    beq_iff_eq]
  refine ⟨⟨by omega, by omega⟩, ?_⟩
  rw [encodeUnits]
  cases encodeUtf16 text.toList with
  | nil => rfl
  | cons unit rest =>
    have hbytes := evenBytes_units (unit :: rest)
    simp [u16Le] at hbytes ⊢
    simp [hbytes]

/-- The two bytes of a single ASCII character in UTF-8 are those of UTF-16 without its terminator.
-/
theorem guessesUtf16_utf8_iff (h : '\x00' ∉ text.toList) :
    guessesUtf16 (utf8.body text) = true ↔ ∃ c : Char, text.toList = [c] ∧ c.toNat < 128 := by
  have hnonzero : ∀ b ∈ utf8Bytes text, b ≠ 0 := fun b => nonzero_of_mem_utf8Bytes h
  constructor
  · intro hguess
    simp only [guessesUtf16, body, length_append, length_singleton, Bool.and_eq_true, decide_eq_true_eq,
      Bool.or_eq_true, beq_iff_eq] at hguess
    obtain ⟨⟨-, heven⟩, hzero⟩ := hguess
    have hfirst : (utf8Bytes text ++ [0]).getD 1 0 = 0 := by
      rcases hzero with hzero | hzero
      · exact hzero
      · obtain ⟨b, hmem, hb⟩ := any_eq_true.mp hzero
        have hin := mem_of_mem_evenBytes (by omega) (mem_of_mem_drop hmem)
        exact absurd (eq_of_beq hb) (hnonzero b hin)
    rcases hbytes : utf8Bytes text with _ | ⟨b, _ | ⟨b', rest⟩⟩
    · simp [hbytes] at heven
    · obtain ⟨c, htext, hascii, -⟩ := ascii_of_utf8Bytes hbytes
      exact ⟨c, htext, hascii⟩
    · rw [hbytes] at hfirst
      exact absurd hfirst (hnonzero b' (by simp [hbytes]))
  · rintro ⟨c, htext, hascii⟩
    simp [guessesUtf16, body, utf8Bytes, htext, utf8EncodeChar_ascii hascii]

theorem decodeTextBody_body
    (h : '\x00' ∉ text.toList)
    {fromUtf8Lossy : Bytes → String}
    (hlossy : fromUtf8Lossy (utf8Bytes text) = text)
    (encoding : Encoding) : decodeTextBody fromUtf8Lossy (encoding.body text) = text := by
  rw [decodeTextBody, if_neg (ne_nil_body encoding)]
  cases encoding with
  | utf16 =>
    have hread := readFixed_encodeUnits h []
    rw [append_nil] at hread
    rw [if_pos (guessesUtf16_utf16 text)]
    exact hread
  | utf8 =>
    by_cases hguess : guessesUtf16 (utf8.body text) = true
    · obtain ⟨c, htext, hascii⟩ := (guessesUtf16_utf8_iff h).mp hguess
      have hunits : encodeUtf16 text.toList = [c.toNat] := by simp [encodeUtf16, htext]; omega
      have hc : c.toNat ≠ 0 :=
        fun hzero => h ((mem_encodeUtf16 (by rw [hunits]; exact mem_singleton_self _)).2 hzero)
      have hdecode := decodeUtf16From_encodeUtf16 text.toList
      rw [hunits] at hdecode
      have hvalue : c.toNat % 256 = c.toNat := Nat.mod_eq_of_lt (by omega)
      rw [if_pos hguess]
      simp [body, utf8Bytes, htext, utf8EncodeChar_ascii hascii, readFixed, codeUnits, toNat_ofNat',
        hvalue, hc, hdecode]
      rw [← String.toList_inj, htext, String.toList_singleton]
    · have hnonzero : ∀ b ∈ utf8Bytes text, b ≠ 0 := fun b => nonzero_of_mem_utf8Bytes h
      rw [if_neg hguess, body, takeWhile_append_of_pos (by simpa using hnonzero)]
      simpa using hlossy

section Channel
variable {β : Type} (fromUtf8Lossy : Bytes → String) (backend : CliprdrBackend β)

/-- The channel and its backend over several calls, with the results of the calls. -/
structure Run (β : Type) where
  results : List (Except DecodeError (List Bytes))
  channel : CliprdrChannel
  state : β

def Run.feed (run : Run β) (chunk : ChannelPdu) : Run β :=
  let outcome := run.channel.onChannelData fromUtf8Lossy backend run.state chunk.payload
  ⟨run.results ++ [outcome.1], outcome.2.1, outcome.2.2⟩

/-- Every chunk is taken without an answer, and the backend is called once, with the text. -/
def Delivered (run : Run β) (chunks : List ChannelPdu) (text : String) : Prop :=
  let after := chunks.foldl (Run.feed fromUtf8Lossy backend) run
  after.results = run.results ++ List.replicate chunks.length (.ok []) ∧
    after.state = backend.onFormatDataResponse run.state (.ok text)

theorem onChannelData_none {channel : CliprdrChannel} {payload rest : Bytes} (state : β)
    (h : reassemble channel.incomingBuffer payload maxCliprdrMessageSize "cliprdr.incoming_buffer" =
        (.ok none, rest)) :
    channel.onChannelData fromUtf8Lossy backend state payload =
      (.ok [], { channel with incomingBuffer := rest }, state) := by
  simp only [onChannelData, h]

theorem onChannelData_response {channel : CliprdrChannel} {payload message rest : Bytes}
    {status : FormatDataStatus} (state : β)
    (hdecode : decodeClientMessage fromUtf8Lossy message = .ok (.formatDataResponse status))
    (h : reassemble channel.incomingBuffer payload maxCliprdrMessageSize "cliprdr.incoming_buffer" =
        (.ok (some message), rest)) :
    channel.onChannelData fromUtf8Lossy backend state payload =
      (.ok [], { channel with incomingBuffer := rest },
        backend.onFormatDataResponse state status) := by
  simp only [onChannelData, h, hdecode, onMessage]

variable {chunks : List ChannelPdu}

theorem delivered_of_delivers {message : Bytes}
    (hdecode : decodeClientMessage fromUtf8Lossy message = .ok (.formatDataResponse (.ok text)))
    (hne : chunks ≠ [])
    (run : Run β)
    (h : answers maxCliprdrMessageSize "cliprdr.incoming_buffer" run.channel.incomingBuffer chunks =
        delivers chunks.length message) : Delivered fromUtf8Lossy backend run chunks text := by
  induction chunks generalizing run with
  | nil => exact absurd rfl hne
  | cons chunk rest ih =>
    rw [answers] at h
    generalize hincoming : reassemble run.channel.incomingBuffer chunk.payload maxCliprdrMessageSize
      "cliprdr.incoming_buffer" = incoming at h
    obtain ⟨answer, buffer⟩ := incoming
    rw [Delivered, foldl_cons]
    cases rest with
    | nil =>
      obtain rfl : answer = .ok (some message) := by simpa [delivers, answers] using h
      simp [Run.feed, onChannelData_response fromUtf8Lossy backend run.state hdecode hincoming]
    | cons next rest =>
      have hdelivers : delivers (chunk :: next :: rest).length message =
          .ok none :: delivers (next :: rest).length message := rfl
      rw [hdelivers, cons.injEq] at h
      obtain ⟨rfl, hrest⟩ := h
      have hturn : run.feed fromUtf8Lossy backend chunk =
          ⟨run.results ++ [.ok []], { run.channel with incomingBuffer := buffer }, run.state⟩ := by
        simp only [Run.feed, onChannelData_none fromUtf8Lossy backend run.state hincoming]
      have hlater :=
        ih (cons_ne_nil _ _) (run.feed fromUtf8Lossy backend chunk) (by rw [hturn]; exact hrest)
      rw [hlater.1, hlater.2, hturn]
      simp [replicate_succ]

/-- Without a whole message the backend is not called. -/
theorem state_of_none (run : Run β)
    (h : answers maxCliprdrMessageSize "cliprdr.incoming_buffer" run.channel.incomingBuffer chunks =
        replicate chunks.length (.ok none)) :
    (chunks.foldl (Run.feed fromUtf8Lossy backend) run).state = run.state := by
  induction chunks generalizing run with
  | nil => rfl
  | cons chunk rest ih =>
    rw [answers, length_cons, replicate_succ, cons.injEq] at h
    generalize hincoming : reassemble run.channel.incomingBuffer chunk.payload maxCliprdrMessageSize
      "cliprdr.incoming_buffer" = incoming at h
    obtain ⟨answer, buffer⟩ := incoming
    obtain ⟨rfl, hrest⟩ := h
    have hturn := onChannelData_none fromUtf8Lossy backend run.state hincoming
    rw [foldl_cons, ih _ (by rw [Run.feed, hturn]; exact hrest), Run.feed, hturn]

theorem decode_encodeFormatDataResponse {encoding : Encoding}
    (h : (encodeFormatDataResponse encoding text).length ≤ maxCliprdrMessageSize) :
    decodeClientMessage fromUtf8Lossy (encodeFormatDataResponse encoding text) =
      .ok (.formatDataResponse (.ok (decodeTextBody fromUtf8Lossy (encoding.body text)))) := by
  have hbody : (encoding.body text).length < 2 ^ 32 := by
    simp only [encodeFormatDataResponse, length_append, maxCliprdrMessageSize] at h
    omega
  have hslice := readSlice_append (rfl : (encoding.body text).length = _) []
  rw [append_nil] at hslice
  rw [encodeFormatDataResponse, writeHeader, append_assoc, append_assoc, decodeClientMessage,
    decodeFrom, bind_ok (readU16Le_of_lt (by decide) _), bind_ok (readU16Le_of_lt (by decide) _),
    bind_ok (readU32Le_of_lt hbody _), bind_ok hslice]
  rfl

end Channel

/-- A backend that keeps what it is given. -/
def recorder : CliprdrBackend (Option FormatDataStatus) :=
  ⟨id, fun state _ => state, fun state _ => state, fun _ status => some status⟩

/-- Whatever is in the buffer, the text reaches every backend exactly if it comes in one chunk or
its first chunk holds data; a first chunk without data leaves the buffer as if no message had begun.
It is taken for UTF-16 if it is, and besides if it is a single ASCII character in UTF-8. -/
theorem clipboard_text_delivered_iff {text : String}
    (htext : '\x00' ∉ text.toList)
    (fromUtf8Lossy : Bytes → String)
    (hlossy : fromUtf8Lossy (utf8Bytes text) = text)
    (encoding : Encoding)
    (hsize : (encodeFormatDataResponse encoding text).length ≤ maxCliprdrMessageSize)
    {chunks : List ChannelPdu}
    (hcut : IsCut (encodeFormatDataResponse encoding text) chunks) :
    ((∀ (β : Type) (backend : CliprdrBackend β) (run : Run β),
        Delivered fromUtf8Lossy backend run chunks text) ↔
       chunks.length = 1 ∨ chunks.head?.map ChannelPdu.body ≠ some []) ∧
    (guessesUtf16 (encoding.body text) = true ↔
       encoding = .utf16 ∨ ∃ c : Char, text.toList = [c] ∧ c.toNat < 128) := by
  have hanswers := fun buffer => answers_of_isCut hcut hsize "cliprdr.incoming_buffer" buffer
  refine ⟨⟨fun hall => ?_, fun hgood β backend run => ?_⟩, ?_⟩
  · by_contra hbad
    simp only [if_neg hbad] at hanswers
    have hnone := state_of_none fromUtf8Lossy recorder ⟨[], ⟨1004, 1002, []⟩, none⟩ (hanswers [])
    cases hnone.symm.trans (hall _ recorder ⟨[], ⟨1004, 1002, []⟩, none⟩).2
  · have hdecode := decode_encodeFormatDataResponse fromUtf8Lossy hsize
    rw [decodeTextBody_body htext hlossy] at hdecode
    refine delivered_of_delivers fromUtf8Lossy backend hdecode hcut.some_chunk run ?_
    rw [hanswers, if_pos hgood]
  · cases encoding with
    | utf16 => exact iff_of_true (guessesUtf16_utf16 text) (.inl rfl)
    | utf8 =>
      rw [guessesUtf16_utf8_iff htext]
      exact ⟨.inr, fun h => h.resolve_left nofun⟩

/-- `é` and a line break in UTF-8, cut behind the header. -/
theorem clipboard_text_delivered_utf8 :
    ((cutInto [[5, 0, 1, 0, 4, 0, 0, 0], [0xC3, 0xA9, 10, 0]]).foldl
       (Run.feed (fun _ => "é\n") recorder) ⟨[], ⟨1004, 1002, [1]⟩, none⟩).state =
      some (.ok "é\n") := by
  have hcut : IsCut _ _ := isCut_cutInto (cons_ne_nil [5, 0, 1, 0, 4, 0, 0, 0] [[0xC3, 0xA9, 10, 0]])
  have hiff := clipboard_text_delivered_iff (by decide : '\x00' ∉ "é\n".toList)
    (fun _ => "é\n") rfl .utf8 (by decide +kernel) hcut
  exact (hiff.1.mpr (.inr (by decide)) _ recorder ⟨[], ⟨1004, 1002, [1]⟩, none⟩).2

/-- Behind an empty first chunk the same text is lost, and `a` in UTF-8 is taken for UTF-16. -/
theorem clipboard_text_lost_or_misread :
    IsCut (encodeFormatDataResponse .utf8 "é\n")
      (cutInto [[], [5, 0, 1, 0, 4, 0, 0, 0, 0xC3, 0xA9, 10, 0]]) ∧
    ((cutInto [[], [5, 0, 1, 0, 4, 0, 0, 0, 0xC3, 0xA9, 10, 0]]).foldl
       (Run.feed (fun _ => "é\n") recorder) ⟨[], ⟨1004, 1002, []⟩, none⟩).state =
      none ∧
    Encoding.utf8.body "a" = [97, 0] ∧
    guessesUtf16 [97, 0] = true := by
  refine ⟨isCut_cutInto (cons_ne_nil [] [[5, 0, 1, 0, 4, 0, 0, 0, 0xC3, 0xA9, 10, 0]]), rfl, ?_,
    by decide⟩
  decide +kernel

end Kmsrdp.Guarantees.ClipboardText
