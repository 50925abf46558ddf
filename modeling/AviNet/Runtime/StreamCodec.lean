import AviNet.Lib.Reader
import AviNet.Runtime.State

/-!
# Runtime.StreamCodec — stream messages on a substream

`AviStreamCodec` of `protocols/stream.rs`: the JSON of a message behind its
length in four bytes, the highest first. The writer takes the length modulo
`2 ^ 32` and has no limit; the reader refuses more than 10 MiB.

* `readable_iff`: what has been written is read back, whatever follows, and no
  part of it is, exactly if the JSON has at most 10 MiB;
* `unreadable`: a message with 5 MiB of zeros.
-/

namespace AviNet

open Reader (Reads Local)

/-- `serde_json` on stream messages, each read as it was written. -/
structure StreamJson extends StreamText where
  reads : ∀ req encoded, toVec req = some encoded → fromSlice encoded = some req

namespace StreamCodec

/-! ## The code -/

/-- `u32::to_be_bytes`. -/
def toBeBytes (n : UInt32) : Bytes :=
  [UInt8.ofNat (n.toNat / 2 ^ 24), UInt8.ofNat (n.toNat / 2 ^ 16),
    UInt8.ofNat (n.toNat / 2 ^ 8), UInt8.ofNat n.toNat]

/-- `u32::from_be_bytes`, on four bytes. -/
def fromBeBytes (bytes : Bytes) : ℕ := bytes.foldl (fun n b => 2 ^ 8 * n + b.toNat) 0

/-- 10 MiB. -/
def maxLen : ℕ := 10 * 1024 * 1024

/-- `write_request`: what is written, `none` for an error. -/
def writeRequest (json : StreamText) (req : StreamMessage) : Option Bytes := do
  let encoded ← json.toVec req
  -- `encoded.len() as u32`
  return toBeBytes (UInt32.ofNat encoded.length) ++ encoded

/-- `read_request`. -/
def readRequest (json : StreamText) : Reader UInt8 StreamMessage := do
  let lenBytes ← Reader.take 4
  let len := fromBeBytes lenBytes
  -- the sanity check
  if len > maxLen then Reader.check none
  else
    let buffer ← Reader.take len
    Reader.check (json.fromSlice buffer)

/-! ## The length -/

/-- A length prefix is read back. -/
theorem fromBeBytes_toBeBytes (n : UInt32) : fromBeBytes (toBeBytes n) = n.toNat := by
  have hlt := n.toNat_lt
  simp only [fromBeBytes, toBeBytes, List.foldl_cons, List.foldl_nil, UInt8.toNat_ofNat']
  omega

/-- The rest of `read_request` after the length. -/
def readBody (json : StreamText) (len : ℕ) : Reader UInt8 StreamMessage :=
  if len > maxLen then Reader.check none
  else Reader.take len >>= fun buffer => Reader.check (json.fromSlice buffer)

theorem readRequest_append (json : StreamText) (n : UInt32) (body : Bytes) :
    readRequest json (toBeBytes n ++ body) = readBody json n.toNat body := by
  have hlen : Reader.take 4 (toBeBytes n ++ body) = some (toBeBytes n, body) :=
    Reader.reads_take (toBeBytes n) body
  have hstep : readRequest json (toBeBytes n ++ body) =
      (Reader.take 4 (toBeBytes n ++ body)).bind fun r => readBody json (fromBeBytes r.1) r.2 := rfl
  rw [hstep, hlen, ← fromBeBytes_toBeBytes n]
  rfl

/-- What is left of the input after a message. -/
theorem readBody_rest {json : StreamText} {len : ℕ} {body rest : Bytes} {req : StreamMessage}
    (h : readBody json len body = some (req, rest)) : len ≤ maxLen ∧ rest = body.drop len := by
  unfold readBody at h
  split_ifs at h with hmax
  · cases h
  · obtain ⟨⟨buffer, mid⟩, htake, hcheck⟩ := Option.bind_eq_some_iff.mp h
    have hmid : mid = body.drop len := by
      unfold Reader.take at htake
      split_ifs at htake
      cases htake
      rfl
    obtain ⟨a, -, ha⟩ := Option.map_eq_some_iff.mp hcheck
    have hrest : mid = rest := congrArg Prod.snd ha
    refine ⟨?_, ?_⟩
    · omega
    · rw [← hrest, hmid]

/-- A request is read from its own bytes only. -/
theorem local_readRequest (json : StreamText) : Local (readRequest json) := by
  have hbody : ∀ len, Local (readBody json len) := by
    intro len
    unfold readBody
    split_ifs
    · exact Reader.local_check none
    · exact (Reader.local_take len).bind fun _ => Reader.local_check _
  exact (Reader.local_take 4).bind fun _ => hbody _

/-- A message is read back, whatever follows it, and nothing is read from a part of it. -/
def Readable (json : StreamText) (req : StreamMessage) (written : Bytes) : Prop :=
  (∀ rest, readRequest json (written ++ rest) = some (req, rest)) ∧
    ∀ part, part <+: written → part ≠ written → readRequest json part = none

/-- A request within the limit is read back. -/
theorem reads_of_length_le {json : StreamText} {req : StreamMessage} {encoded : Bytes}
    (hread : json.fromSlice encoded = some req) (hlen : encoded.length ≤ maxLen) :
    Reads (readRequest json) (toBeBytes (UInt32.ofNat encoded.length) ++ encoded) req := by
  intro rest
  have hn : (UInt32.ofNat encoded.length).toNat = encoded.length := by
    rw [UInt32.toNat_ofNat']
    unfold maxLen at hlen
    omega
  have hbody : Reads (Reader.take encoded.length >>= fun buffer =>
      Reader.check (json.fromSlice buffer)) encoded req := by
    have hcheck := Reader.reads_check (τ := UInt8) hread
    have hbuffer := (Reader.reads_take encoded).bind
      (f := fun buffer => Reader.check (json.fromSlice buffer)) hcheck
    rwa [List.append_nil] at hbuffer
  rw [List.append_assoc, readRequest_append, hn, readBody, if_neg (by omega)]
  exact hbody rest

/-- The reader has to take all of the JSON off, and takes at most 10 MiB. -/
theorem length_le_of_readable {json : StreamText} {req : StreamMessage} {encoded : Bytes}
    (h : Readable json req (toBeBytes (UInt32.ofNat encoded.length) ++ encoded)) :
    encoded.length ≤ maxLen := by
  have hwhole := h.1 []
  rw [List.append_nil, readRequest_append] at hwhole
  obtain ⟨hmax, hrest⟩ := readBody_rest hwhole
  have hlen := List.drop_eq_nil_iff.mp hrest.symm
  omega

/-- **What the writer accepts can be read back exactly if its JSON has at most 10 MiB.** -/
theorem readable_iff (json : StreamJson) {req : StreamMessage} {written : Bytes}
    (h : writeRequest json.toStreamText req = some written) :
    Readable json.toStreamText req written ↔
      ∀ encoded, json.toVec req = some encoded → encoded.length ≤ maxLen := by
  obtain ⟨encoded, hencoded, hw⟩ := Option.bind_eq_some_iff.mp h
  cases hw
  constructor
  · intro hread encoded' hencoded'
    rw [hencoded] at hencoded'
    cases hencoded'
    exact length_le_of_readable hread
  · intro hmax
    have hreads := reads_of_length_le (json.reads req encoded hencoded) (hmax encoded hencoded)
    constructor
    · exact hreads
    · intro part hpart hne
      exact hreads.fails (local_readRequest json.toStreamText) hpart hne

/-! ## What arrives -/

section Received

variable {json : StreamText} {req req' : StreamMessage}

/-- What `read_request` makes of a message that `write_request` has written. -/
def received (json : StreamText) (req : StreamMessage) : Option StreamMessage := do
  let written ← writeRequest json req
  let (req', _) ← readRequest json written
  return req'

/-- The message has at most 10 MiB of JSON, and is read as it was written. -/
def Fits (json : StreamText) (req : StreamMessage) : Prop :=
  ∃ encoded, json.toVec req = some encoded ∧ encoded.length ≤ maxLen ∧
    json.fromSlice encoded = some req

/-- A message that fits arrives. -/
theorem received_of_fits (h : Fits json req) : received json req = some req := by
  rcases h with ⟨encoded, hencoded, hlen, hread⟩
  have hwritten : writeRequest json req =
      some (toBeBytes (UInt32.ofNat encoded.length) ++ encoded) := by
    unfold writeRequest
    rw [hencoded]
    rfl
  have hback := reads_of_length_le hread hlen []
  rw [List.append_nil] at hback
  unfold received
  rw [hwritten]
  simp only [Option.bind_eq_bind, Option.bind_some, hback]
  rfl

/-- The message has at most 10 MiB of JSON. -/
def Short (json : StreamText) (req : StreamMessage) : Prop :=
  ∃ encoded, json.toVec req = some encoded ∧ encoded.length ≤ maxLen

/-- A message that fits into a request is short in particular. -/
theorem short_of_fits (h : Fits json req) : Short json req := by
  rcases h with ⟨encoded, hencoded, hlen, -⟩
  exact ⟨encoded, hencoded, hlen⟩

/-- That is enough for a message without a context. -/
theorem fits_of_short {json : SerdeJson} (h : Short json.toStreamText req)
    (hctx : req.context? = none) : Fits json.toStreamText req := by
  rcases h with ⟨encoded, hencoded, hlen⟩
  exact ⟨encoded, hencoded, hlen, json.fromSlice_toVec req encoded hencoded hctx⟩

/-- In a table that is not too long every message fits. -/
theorem fits_table {messages : List StreamMessage} (hmem : req ∈ messages)
    (hlen : messages.length ≤ maxLen) : Fits (SerdeJson.table messages).toStreamText req := by
  have hplace : placeIn messages req =
      some (List.replicate (messages.idxOf req) 0 ++ [1]) := if_pos hmem
  refine ⟨_, hplace, ?_, atPlace_of_placeIn hplace⟩
  have hidx := List.idxOf_lt_length_of_mem hmem
  rw [List.length_append, List.length_replicate, List.length_singleton]
  omega

/-- What arrives is read from the whole text of what was sent: if the length has run over,
a part of the text is read, and that is no JSON. -/
theorem text_of_received {json : SerdeJson} (h : received json.toStreamText req = some req') :
    ∃ encoded, json.toVec req = some encoded ∧ json.fromSlice encoded = some req' := by
  unfold received at h
  obtain ⟨written, hwritten, h⟩ := Option.bind_eq_some_iff.mp h
  obtain ⟨encoded, hencoded, hw⟩ := Option.bind_eq_some_iff.mp hwritten
  cases hw
  obtain ⟨⟨req'', rest⟩, hread, heq⟩ := Option.bind_eq_some_iff.mp h
  cases heq
  rw [readRequest_append] at hread
  unfold readBody at hread
  split_ifs at hread with hmax
  · cases hread
  · obtain ⟨⟨buffer, mid⟩, htake, hcheck⟩ := Option.bind_eq_some_iff.mp hread
    obtain ⟨req'', hslice, heq⟩ := Option.map_eq_some_iff.mp hcheck
    cases heq
    unfold Reader.take at htake
    split_ifs at htake
    cases htake
    by_cases hwhole : encoded.take (UInt32.ofNat encoded.length).toNat = encoded
    · rw [hwhole] at hslice
      exact ⟨encoded, hencoded, hslice⟩
    · rw [json.fromSlice_part req encoded _ hencoded (List.take_prefix _ _) hwhole] at hslice
      cases hslice

/-- What arrives is what was sent, or a context for a context. -/
theorem received_cases {json : SerdeJson} (h : received json.toStreamText req = some req') :
    req' = req ∨ (req.context?.isSome = true ∧ req'.context?.isSome = true) := by
  rcases text_of_received h with ⟨encoded, hencoded, hread⟩
  cases hctx : req.context? with
  | none =>
    have hback := json.fromSlice_toVec req encoded hencoded hctx
    exact Or.inl (Option.some.inj (hread.symm.trans hback))
  | some ctx =>
    cases req with
    | syncContext c => exact Or.inr ⟨rfl, json.fromSlice_context c encoded req' hencoded hread⟩
    | _ => cases hctx

end Received

/-- The event at a node that a request reaches. The runtime does not look at requests that
cannot be read. -/
def arrival {Peer : Type} (lib : External Peer) (source : Peer) (req : StreamMessage) :
    SwarmEvent Peer :=
  match received lib.json.toStreamText req with
  | some req' => .request source req'
  | none => .other

/-- A request that fits arrives as itself. -/
theorem arrival_of_fits {Peer : Type} {lib : External Peer} {req : StreamMessage}
    (h : Fits lib.json.toStreamText req) (source : Peer) :
    arrival lib source req = .request source req := by
  unfold arrival
  rw [received_of_fits h]

/-! ## A large message -/

/-- `serde_json` on one message with this JSON. -/
def single (msg : StreamMessage) (text : Bytes) : StreamJson where
  toVec req := if req = msg then some text else none
  fromSlice encoded := if encoded = text then some msg else none
  reads req encoded h := by
    split_ifs at h with hreq
    cases h
    rw [if_pos rfl, hreq]

theorem writeRequest_single (msg : StreamMessage) (text : Bytes) :
    writeRequest (single msg text).toStreamText msg =
      some (toBeBytes (UInt32.ofNat text.length) ++ text) := by
  have htext : (single msg text).toVec msg = some text := if_pos rfl
  unfold writeRequest
  rw [htext]
  rfl

/-- A text of ASCII characters in UTF-8. -/
def ascii (s : String) : Bytes := s.toList.map fun c => UInt8.ofNat c.toNat

/-- The JSON of `StreamData` on stream 1 with `n + 1` zeros. -/
def zerosText (n : ℕ) : Bytes :=
  ascii "\x7b\"StreamData\":\x7b\"stream_id\":1,\"data\":[0" ++
    ((List.replicate n (ascii ",0")).flatten ++ ascii "]\x7d\x7d")

theorem length_zerosText (n : ℕ) : (zerosText n).length = 2 * n + 41 := by
  have hhead : (ascii "\x7b\"StreamData\":\x7b\"stream_id\":1,\"data\":[0").length = 38 := by
    decide
  have hitem : (ascii ",0").length = 2 := by decide
  have htail : (ascii "]\x7d\x7d").length = 3 := by decide
  have hitems : (List.replicate n (ascii ",0")).flatten.length = 2 * n := by
    induction n with
    | zero => rfl
    | succ n ih =>
      rw [List.replicate_succ, List.flatten_cons, List.length_append, ih, hitem]
      omega
  unfold zerosText
  rw [List.length_append, List.length_append, hhead, hitems, htail]
  omega

/-- `StreamData` on stream 1 with `n + 1` zeros. -/
def zeros (n : ℕ) : StreamMessage := .streamData 1 (List.replicate (n + 1) 0)

theorem readable_iff_zeros :
    Readable (single (zeros 2) (zerosText 2)).toStreamText (zeros 2)
        (toBeBytes (UInt32.ofNat (zerosText 2).length) ++ zerosText 2) ↔
      ∀ encoded, (single (zeros 2) (zerosText 2)).toVec (zeros 2) = some encoded →
        encoded.length ≤ maxLen :=
  readable_iff _ (writeRequest_single (zeros 2) (zerosText 2))

/-- 5 MiB of zeros are written and refused. -/
theorem unreadable : ¬ ∀ (json : StreamJson) (req : StreamMessage) (written : Bytes),
    writeRequest json.toStreamText req = some written →
      Readable json.toStreamText req written := by
  intro h
  have hread := h _ _ _ (writeRequest_single (zeros (5 * 1024 * 1024 - 1))
    (zerosText (5 * 1024 * 1024 - 1)))
  have hmax := length_le_of_readable hread
  rw [length_zerosText] at hmax
  unfold maxLen at hmax
  omega

end StreamCodec

end AviNet
