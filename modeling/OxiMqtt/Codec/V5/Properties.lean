import OxiMqtt.Codec.Utils

/-!
# MQTT 5 properties

The property helpers of `codec/v5/encode.rs` and the module `ack_props` of
`codec/v5/packet/mod.rs`.

* A property is written as its type byte and its value, and left out when it is
  absent or has its default (`propImage`, `elide`).
* The user properties and the reason string of an acknowledgment may be cut to
  fit a limit.  The size pass (`encodedSizeOptProps`) and the encode pass
  (`encodeOptProps`) decide what to cut by different tests; `keepOptProps` states
  the choice once, and both passes are shown to make it
  (`encodedSizeOptProps_eq`, `writes_encodeOptProps`).
-/

namespace OxiMqtt.Codec.V5

open Wire Wire.Reader Wire.ByteWriter

/-! ## Property types -/

namespace pt

@[match_pattern] def UTF8_PAYLOAD : UInt8 := 0x01
@[match_pattern] def MSG_EXPIRY_INT : UInt8 := 0x02
@[match_pattern] def CONTENT_TYPE : UInt8 := 0x03
@[match_pattern] def RESP_TOPIC : UInt8 := 0x08
@[match_pattern] def CORR_DATA : UInt8 := 0x09
@[match_pattern] def SUB_ID : UInt8 := 0x0B
@[match_pattern] def SESS_EXPIRY_INT : UInt8 := 0x11
@[match_pattern] def ASSND_CLIENT_ID : UInt8 := 0x12
@[match_pattern] def SERVER_KA : UInt8 := 0x13
@[match_pattern] def AUTH_METHOD : UInt8 := 0x15
@[match_pattern] def AUTH_DATA : UInt8 := 0x16
@[match_pattern] def REQ_PROB_INFO : UInt8 := 0x17
@[match_pattern] def WILL_DELAY_INT : UInt8 := 0x18
@[match_pattern] def REQ_RESP_INFO : UInt8 := 0x19
@[match_pattern] def RESP_INFO : UInt8 := 0x1A
@[match_pattern] def SERVER_REF : UInt8 := 0x1C
@[match_pattern] def REASON_STRING : UInt8 := 0x1F
@[match_pattern] def RECEIVE_MAX : UInt8 := 0x21
@[match_pattern] def TOPIC_ALIAS_MAX : UInt8 := 0x22
@[match_pattern] def TOPIC_ALIAS : UInt8 := 0x23
@[match_pattern] def MAX_QOS : UInt8 := 0x24
@[match_pattern] def RETAIN_AVAIL : UInt8 := 0x25
@[match_pattern] def USER : UInt8 := 0x26
@[match_pattern] def MAX_PACKET_SIZE : UInt8 := 0x27
@[match_pattern] def WILDCARD_SUB_AVAIL : UInt8 := 0x28
@[match_pattern] def SUB_IDS_AVAIL : UInt8 := 0x29
@[match_pattern] def SHARED_SUB_AVAIL : UInt8 := 0x2A

end pt

/-! ## Single properties -/

section Property

variable {α σ : Type} [Encode α]

/-- `encoded_property_size` -/
def encodedPropertySize (v : Option α) : Nat :=
  match v with
  | some a => 1 + encodedSize a
  | none => 0

/-- `encoded_property_size_default` -/
def encodedPropertySizeDefault [DecidableEq α] (v dflt : α) : Nat :=
  if v = dflt then 0 else 1 + encodedSize v

/-- `encode_property` -/
def encodeProperty (v : Option α) (propType : UInt8) : ByteWriter EncodeError Unit :=
  match v with
  | some a => do
      putU8 propType
      encode a
  | none => pure ()

/-- `encode_property_default` -/
def encodePropertyDefault [DecidableEq α] (v dflt : α) (propType : UInt8) :
    ByteWriter EncodeError Unit :=
  if v ≠ dflt then do
    putU8 propType
    encode v
  else pure ()

/-- The value to be written when the default is left out. -/
def elide [DecidableEq α] (v dflt : α) : Option α := if v = dflt then none else some v

omit [Encode α] in
theorem getD_elide [DecidableEq α] (v dflt : α) : (elide v dflt).getD dflt = v := by
  unfold elide
  split
  · rename_i h
    exact h.symm
  · rfl

theorem encodedPropertySizeDefault_eq [DecidableEq α] (v dflt : α) :
    encodedPropertySizeDefault v dflt = encodedPropertySize (elide v dflt) := by
  unfold encodedPropertySizeDefault elide
  split <;> rfl

theorem encodePropertyDefault_eq [DecidableEq α] (v dflt : α) (propType : UInt8) :
    encodePropertyDefault v dflt propType = encodeProperty (elide v dflt) propType := by
  unfold encodePropertyDefault elide
  by_cases h : v = dflt
  · rw [if_neg (not_not.mpr h), if_pos h]
    rfl
  · rw [if_pos h, if_neg h]
    rfl

variable [Decode α] [WireType α]

/-- The bytes of an optional property. -/
def propImage (propType : UInt8) (v : Option α) : Bytes :=
  match v with
  | some a => propType :: image a
  | none => []

theorem length_propImage (propType : UInt8) (v : Option α) :
    (propImage propType v).length = encodedPropertySize v := by
  cases v with
  | none => rfl
  | some a =>
      rw [propImage, List.length_cons, WireType.length_image, Nat.add_comm]
      rfl

theorem writes_encodeProperty {v : Option α} (fits : ∀ a ∈ v, Fits a) (propType : UInt8) :
    Writes (encodeProperty v propType) (propImage propType v) := by
  cases v with
  | none => exact Writes.pure
  | some a => exact (Writes.putU8 propType).bind (WireType.writes a (fits a rfl))

theorem writes_encodePropertyDefault [DecidableEq α] {v dflt : α} (fits : Fits v)
    (propType : UInt8) :
    Writes (encodePropertyDefault v dflt propType) (propImage propType (elide v dflt)) := by
  rw [encodePropertyDefault_eq]
  refine writes_encodeProperty (fun a ha => ?_) propType
  unfold elide at ha
  split at ha
  · cases ha
  · cases ha
    exact fits

/-- A property that the dispatch reads with `readValue` sets its field; an absent
one leaves the accumulator as it is. -/
theorem feeds_property {read : σ → UInt8 → Reader DecodeError σ} {acc : σ} (propType : UInt8)
    (set : σ → Option α → σ) (v : Option α)
    (reads : read acc propType = readValue (none : Option α) >>= fun x => pure (set acc x))
    (unset : set acc none = acc) (fits : ∀ a ∈ v, Fits a) :
    FeedsProps read acc (propImage propType v) (set acc v) := by
  cases v with
  | none =>
      rw [unset]
      exact Feeds.refl _ acc
  | some a =>
      refine Feeds.of_decodes ?_ (List.cons_ne_nil _ _)
      refine (Decodes.getU8 propType).bind ?_
      rw [reads]
      exact ((Decodes.ensure rfl).bind_nil (WireType.decodes a (fits a rfl)).map).bind_last
        (Decodes.pure (set acc (some a)))

end Property

/-! ## User properties -/

instance : Encode UserProperties where
  encodedSize ups := ups.foldl (fun len prop => len + (1 + encodedSize prop)) 0
  encode ups := forEach (fun prop => do putU8 pt.USER; encode prop) ups

/-- The bytes of one user property. -/
def userImage (up : UserProperty) : Bytes := pt.USER :: image up

/-- The bytes of the user properties. -/
def usersImage (ups : UserProperties) : Bytes := ups.flatMap userImage

/-- Every key and every value fits its length field. -/
def UsersFit (ups : UserProperties) : Prop := ∀ up ∈ ups, Fits up

theorem length_userImage (up : UserProperty) : (userImage up).length = 1 + encodedSize up := by
  rw [userImage, List.length_cons, WireType.length_image, Nat.add_comm]

theorem length_usersImage (ups : UserProperties) : (usersImage ups).length = encodedSize ups := by
  change _ = ups.foldl (fun len prop => len + (1 + encodedSize prop)) 0
  rw [foldl_size ups length_userImage, Nat.zero_add, usersImage]

theorem writes_user {up : UserProperty} (fits : Fits up) :
    Writes (do putU8 pt.USER; encode up) (userImage up) :=
  (Writes.putU8 pt.USER).bind (WireType.writes up fits)

theorem writes_users {ups : UserProperties} (fits : UsersFit ups) :
    Writes (encode ups) (usersImage ups) :=
  Writes.forEach ups fun up hup => writes_user (fits up hup)

/-- Properties that may be repeated are appended to the accumulator in order. -/
theorem feeds_list {β σ : Type} {read : σ → UInt8 → Reader DecodeError σ} {acc : σ}
    {d : Reader DecodeError β} {img : β → Bytes} (propType : UInt8) (push : σ → List β → σ)
    {bs : List β} (reads : ∀ pre, read (push acc pre) propType =
      d >>= fun b => pure (push acc (pre ++ [b])))
    (unset : push acc [] = acc) (decodes : ∀ b ∈ bs, Decodes d (img b) b) :
    FeedsProps read acc (bs.flatMap fun b => propType :: img b) (push acc bs) := by
  have run : FeedsProps read (push acc []) (bs.flatMap fun b => propType :: img b)
      (push acc ([] ++ bs)) := by
    refine Feeds.append bs (fun b hb pre => ?_) []
    refine Feeds.of_decodes ?_ (List.cons_ne_nil _ _)
    refine (Decodes.getU8 propType).bind ?_
    rw [reads]
    exact (decodes b hb).bind_last (Decodes.pure _)
  rwa [unset, List.nil_append] at run

theorem feeds_users {σ : Type} {read : σ → UInt8 → Reader DecodeError σ} {acc : σ}
    (push : σ → UserProperties → σ) {ups : UserProperties}
    (reads : ∀ pre, read (push acc pre) pt.USER =
      decode >>= fun up => pure (push acc (pre ++ [up])))
    (unset : push acc [] = acc) (fits : UsersFit ups) :
    FeedsProps read acc (usersImage ups) (push acc ups) :=
  feeds_list pt.USER push reads unset fun up hup => WireType.decodes up (fits up hup)

/-! ## Properties that may be cut -/

/-- The loop of `encoded_size_opt_props`. -/
def encodedSizeOptPropsLoop (reasonStr : Option ByteString) : UserProperties → Nat → Nat → Nat
  | [], limit, len =>
      match reasonStr with
      | some reason =>
          let reasonLen := 1 + encodedSize reason
          if reasonLen ≤ limit then len + reasonLen else len
      | none => len
  | up :: ups, limit, len =>
      let propLen := 1 + encodedSize up
      if propLen > limit then len
      else encodedSizeOptPropsLoop reasonStr ups (limit - propLen) (len + propLen)

/-- `encoded_size_opt_props` -/
def encodedSizeOptProps (userProps : UserProperties) (reasonStr : Option ByteString) (limit : Nat) :
    Nat := encodedSizeOptPropsLoop reasonStr userProps limit 0

/-- `encode_opt_props` -/
def encodeOptProps : UserProperties → Option ByteString → Nat → ByteWriter EncodeError Unit
  | [], reasonStr, size =>
      match reasonStr with
      | some reason =>
          if ByteString.len reason < size then do
            putU8 pt.REASON_STRING
            encode reason
          else pure ()
      | none => pure ()
  | up :: ups, reasonStr, size =>
      let propLen := 1 + encodedSize up.1 + encodedSize up.2
      if propLen > size then pure ()
      else do
        putU8 pt.USER
        encode up
        encodeOptProps ups reasonStr (size - propLen)

/-- `reduce_limit` -/
def reduceLimit (limit reduction : Nat) : Nat := if reduction > limit then 0 else limit - reduction

theorem reduceLimit_eq (limit reduction : Nat) : reduceLimit limit reduction = limit - reduction := by
  unfold reduceLimit
  split <;> omega

/-- What is kept of the user properties and the reason string under a limit: the
longest prefix that fits, and the reason string if everything fits. -/
def keepOptProps : UserProperties → Option ByteString → Nat → UserProperties × Option ByteString
  | [], reasonStr, limit => ([], reasonStr.filter fun reason => 1 + encodedSize reason ≤ limit)
  | up :: ups, reasonStr, limit =>
      if 1 + encodedSize up > limit then ([], none)
      else
        let kept := keepOptProps ups reasonStr (limit - (1 + encodedSize up))
        (up :: kept.1, kept.2)

theorem keepOptProps_nil_of_le {reason : ByteString} {limit : Nat}
    (h : 1 + encodedSize reason ≤ limit) :
    keepOptProps [] (some reason) limit = ([], some reason) := by
  rw [keepOptProps, Option.filter_some, if_pos (decide_eq_true h)]

theorem keepOptProps_nil_of_lt {reason : ByteString} {limit : Nat}
    (h : limit < 1 + encodedSize reason) : keepOptProps [] (some reason) limit = ([], none) := by
  rw [keepOptProps, Option.filter_some, if_neg (by simpa using h)]

theorem keepOptProps_cons_of_lt {up : UserProperty} {limit : Nat} (h : limit < 1 + encodedSize up)
    (ups : UserProperties) (reasonStr : Option ByteString) :
    keepOptProps (up :: ups) reasonStr limit = ([], none) := by
  rw [keepOptProps, if_pos h]

theorem keepOptProps_cons_of_le {up : UserProperty} {limit : Nat} (h : 1 + encodedSize up ≤ limit)
    (ups : UserProperties) (reasonStr : Option ByteString) :
    keepOptProps (up :: ups) reasonStr limit =
      (up :: (keepOptProps ups reasonStr (limit - (1 + encodedSize up))).1,
        (keepOptProps ups reasonStr (limit - (1 + encodedSize up))).2) := by
  rw [keepOptProps, if_neg (by omega)]

/-- The bytes of user properties followed by a reason string. -/
def optPropsImage (ups : UserProperties) (reasonStr : Option ByteString) : Bytes :=
  usersImage ups ++ propImage pt.REASON_STRING reasonStr

theorem optPropsImage_cons (up : UserProperty) (ups : UserProperties)
    (reasonStr : Option ByteString) :
    optPropsImage (up :: ups) reasonStr = userImage up ++ optPropsImage ups reasonStr := by
  rw [optPropsImage, usersImage, List.flatMap_cons, List.append_assoc]
  rfl

theorem length_optPropsImage_nil (reason : ByteString) :
    (optPropsImage [] (some reason)).length = 1 + encodedSize reason := by
  rw [optPropsImage, List.length_append, length_propImage]
  exact Nat.zero_add _

theorem encodedSizeOptPropsLoop_eq (ups : UserProperties) (reasonStr : Option ByteString)
    (limit len : Nat) : encodedSizeOptPropsLoop reasonStr ups limit len =
      len + (optPropsImage (keepOptProps ups reasonStr limit).1
        (keepOptProps ups reasonStr limit).2).length := by
  induction ups generalizing limit len with
  | nil =>
      cases reasonStr with
      | none => rfl
      | some reason =>
          rw [encodedSizeOptPropsLoop]
          rcases Nat.lt_or_ge limit (1 + encodedSize reason) with h | h
          · rw [keepOptProps_nil_of_lt h, if_neg (by omega)]
            rfl
          · rw [keepOptProps_nil_of_le h, if_pos h, length_optPropsImage_nil]
  | cons up ups ih =>
      rw [encodedSizeOptPropsLoop]
      rcases Nat.lt_or_ge limit (1 + encodedSize up) with h | h
      · rw [keepOptProps_cons_of_lt h, if_pos h]
        rfl
      · rw [keepOptProps_cons_of_le h, if_neg (by omega), ih, optPropsImage_cons,
          List.length_append, length_userImage, Nat.add_assoc]

/-- The size pass adds up what is kept. -/
theorem encodedSizeOptProps_eq (ups : UserProperties) (reasonStr : Option ByteString)
    (limit : Nat) : encodedSizeOptProps ups reasonStr limit =
      (optPropsImage (keepOptProps ups reasonStr limit).1
        (keepOptProps ups reasonStr limit).2).length := by
  rw [encodedSizeOptProps, encodedSizeOptPropsLoop_eq, Nat.zero_add]

theorem encodedSizeOptProps_cons_of_lt {up : UserProperty} {limit : Nat}
    (h : limit < 1 + encodedSize up) (ups : UserProperties) (reasonStr : Option ByteString) :
    encodedSizeOptProps (up :: ups) reasonStr limit = 0 := by
  rw [encodedSizeOptProps_eq, keepOptProps_cons_of_lt h]
  rfl

theorem encodedSizeOptProps_cons_of_le {up : UserProperty} {limit : Nat}
    (h : 1 + encodedSize up ≤ limit) (ups : UserProperties) (reasonStr : Option ByteString) :
    encodedSizeOptProps (up :: ups) reasonStr limit =
      1 + encodedSize up + encodedSizeOptProps ups reasonStr (limit - (1 + encodedSize up)) := by
  rw [encodedSizeOptProps_eq, encodedSizeOptProps_eq, keepOptProps_cons_of_le h,
    optPropsImage_cons, List.length_append, length_userImage]

theorem encodeOptProps_zero (ups : UserProperties) (reasonStr : Option ByteString) :
    encodeOptProps ups reasonStr 0 = pure () := by
  cases ups with
  | nil => cases reasonStr <;> rfl
  | cons up ups => rw [encodeOptProps, if_pos (by omega)]

/-- The diagnostic properties of a packet are within their wire limits. -/
def DiagFit (ups : UserProperties) (reasonStr : Option ByteString) : Prop :=
  UsersFit ups ∧ ∀ r ∈ reasonStr, Fits r

/-- The encode pass, given exactly the size of what is kept, writes what is kept.
Where the size pass stopped, the size is used up and the encode pass stops too. -/
theorem writes_encodeOptProps {ups : UserProperties} {reasonStr : Option ByteString} {limit : Nat}
    (fits : DiagFit (keepOptProps ups reasonStr limit).1 (keepOptProps ups reasonStr limit).2) :
    Writes (encodeOptProps ups reasonStr (encodedSizeOptProps ups reasonStr limit))
      (optPropsImage (keepOptProps ups reasonStr limit).1
        (keepOptProps ups reasonStr limit).2) := by
  rw [encodedSizeOptProps_eq]
  induction ups generalizing limit with
  | nil =>
      cases reasonStr with
      | none => exact Writes.pure
      | some reason =>
          rcases Nat.lt_or_ge limit (1 + encodedSize reason) with h | h
          · rw [keepOptProps_nil_of_lt h]
            exact Writes.pure
          · have size : ByteString.len reason < 1 + encodedSize reason :=
              show ByteString.len reason < 1 + (2 + ByteString.len reason) by omega
            rw [keepOptProps_nil_of_le h] at fits ⊢
            rw [length_optPropsImage_nil, encodeOptProps, if_pos size]
            exact (Writes.putU8 _).bind (WireType.writes reason (fits.2 reason rfl))
  | cons up ups ih =>
      rcases Nat.lt_or_ge limit (1 + encodedSize up) with h | h
      · rw [keepOptProps_cons_of_lt h]
        change Writes (encodeOptProps (up :: ups) reasonStr 0) []
        rw [encodeOptProps_zero]
        exact Writes.pure
      · have pair : 1 + encodedSize up.1 + encodedSize up.2 = 1 + encodedSize up := Nat.add_assoc _ _ _
        rw [keepOptProps_cons_of_le h] at fits ⊢
        have rest := ih ⟨fun up' hup' => fits.1 up' (List.mem_cons_of_mem _ hup'), fits.2⟩
        rw [optPropsImage_cons, List.length_append, length_userImage, encodeOptProps]
        simp only [pair, Nat.add_sub_cancel_left]
        rw [if_neg (by omega)]
        exact (Writes.putU8 _).bind
          ((WireType.writes up (fits.1 up List.mem_cons_self)).bind rest)

/-- What is kept is a prefix of the user properties, and the reason string is
kept as it is or dropped, and kept only if no user property is dropped. -/
theorem keepOptProps_spec (ups : UserProperties) (reasonStr : Option ByteString) (limit : Nat) :
    (keepOptProps ups reasonStr limit).1 <+: ups ∧
      ((keepOptProps ups reasonStr limit).2 = none ∨
        (keepOptProps ups reasonStr limit).2 = reasonStr ∧
          (keepOptProps ups reasonStr limit).1 = ups) := by
  induction ups generalizing limit with
  | nil =>
      refine ⟨List.prefix_rfl, ?_⟩
      cases reasonStr with
      | none => exact .inl rfl
      | some reason =>
          rcases Nat.lt_or_ge limit (1 + encodedSize reason) with h | h
          · exact .inl (by rw [keepOptProps_nil_of_lt h])
          · exact .inr (by rw [keepOptProps_nil_of_le h]; exact ⟨rfl, rfl⟩)
  | cons up ups ih =>
      rcases Nat.lt_or_ge limit (1 + encodedSize up) with h | h
      · rw [keepOptProps_cons_of_lt h]
        exact ⟨List.nil_prefix, .inl rfl⟩
      · rw [keepOptProps_cons_of_le h]
        obtain ⟨pre, reason⟩ := ih (limit - (1 + encodedSize up))
        refine ⟨(List.prefix_cons_inj up).mpr pre, ?_⟩
        rcases reason with none | ⟨same, all⟩
        · exact .inl none
        · exact .inr ⟨same, congrArg (up :: ·) all⟩

/-- Nothing is cut when everything is within the limit. -/
theorem keepOptProps_of_le {ups : UserProperties} {reasonStr : Option ByteString} {limit : Nat}
    (h : (optPropsImage ups reasonStr).length ≤ limit) :
    keepOptProps ups reasonStr limit = (ups, reasonStr) := by
  induction ups generalizing limit with
  | nil =>
      cases reasonStr with
      | none => rfl
      | some reason =>
          rw [length_optPropsImage_nil] at h
          exact keepOptProps_nil_of_le h
  | cons up ups ih =>
      rw [optPropsImage_cons, List.length_append, length_userImage] at h
      rw [keepOptProps_cons_of_le (by omega), ih (by omega)]

/-- What is kept is within the limit. -/
theorem length_keepOptProps_le (ups : UserProperties) (reasonStr : Option ByteString)
    (limit : Nat) :
    (optPropsImage (keepOptProps ups reasonStr limit).1
      (keepOptProps ups reasonStr limit).2).length ≤ limit := by
  induction ups generalizing limit with
  | nil =>
      cases reasonStr with
      | none => exact Nat.zero_le limit
      | some reason =>
          rcases Nat.lt_or_ge limit (1 + encodedSize reason) with h | h
          · rw [keepOptProps_nil_of_lt h]
            exact Nat.zero_le limit
          · rw [keepOptProps_nil_of_le h, length_optPropsImage_nil]
            exact h
  | cons up ups ih =>
      rcases Nat.lt_or_ge limit (1 + encodedSize up) with h | h
      · rw [keepOptProps_cons_of_lt h]
        exact Nat.zero_le limit
      · have rest := ih (limit - (1 + encodedSize up))
        rw [keepOptProps_cons_of_le h]
        dsimp only
        rw [optPropsImage_cons, List.length_append, length_userImage]
        omega

theorem DiagFit.nil : DiagFit [] none :=
  ⟨fun _ h => (List.not_mem_nil h).elim, fun _ h => (Option.not_mem_none _ h).elim⟩

/-- What is kept is within the wire limits. -/
theorem DiagFit.keep {ups : UserProperties} {reasonStr : Option ByteString}
    (fits : DiagFit ups reasonStr) (limit : Nat) :
    DiagFit (keepOptProps ups reasonStr limit).1 (keepOptProps ups reasonStr limit).2 := by
  obtain ⟨pre, reason⟩ := keepOptProps_spec ups reasonStr limit
  refine ⟨fun up hup => fits.1 up (pre.subset hup), fun r hr => ?_⟩
  rcases reason with none | ⟨same, -⟩
  · rw [none] at hr
    cases hr
  · exact fits.2 r (same ▸ hr)

/-! ## A packet of fixed properties and properties that may be cut -/

/-- The size of a packet with a header, `propLen` bytes of fixed properties, and
diagnostic properties that are cut to the limit. -/
def sizeWithDiag (headerLen propLen : Nat) (ups : UserProperties) (reasonStr : Option ByteString)
    (limit : Nat) : Nat :=
  let diagLen := encodedSizeOptProps ups reasonStr (reduceLimit limit (headerLen + 4 + propLen))
  headerLen + varIntLen (propLen + diagLen) + (propLen + diagLen)

/-- The encode pass of such a packet.  What is left for the diagnostic properties
is found from the bytes already written. -/
def encodeWithDiag (headerLen : Nat) (header fixed : ByteWriter EncodeError Unit)
    (ups : UserProperties) (reasonStr : Option ByteString) (size : Nat) :
    ByteWriter EncodeError Unit :=
  counted
    (do
      header
      let propSize ← checkedSub size headerLen
      let propLen ← varIntLenFromSize propSize
      writeVariableLength propLen
      fixed)
    fun written => do
      let rest ← checkedSub size written
      encodeOptProps ups reasonStr rest

/-- The bytes of such a packet. -/
def diagImage (header fixed : Bytes) (ups : UserProperties) (reasonStr : Option ByteString) : Bytes :=
  header ++ (varInt (fixed ++ optPropsImage ups reasonStr).length ++
    (fixed ++ optPropsImage ups reasonStr))

/-- What is kept of the diagnostic properties of such a packet. -/
def keepDiag (headerLen propLen : Nat) (ups : UserProperties) (reasonStr : Option ByteString)
    (limit : Nat) : UserProperties × Option ByteString :=
  keepOptProps ups reasonStr (reduceLimit limit (headerLen + 4 + propLen))

section Diag

variable {header fixed : Bytes} {ups : UserProperties} {reasonStr : Option ByteString}
  {limit headerLen propLen : Nat}

/-- The size pass measures the bytes, if either of the two is small. -/
theorem sizeWithDiag_eq (hheader : header.length = headerLen) (hfixed : fixed.length = propLen)
    (small : sizeWithDiag headerLen propLen ups reasonStr limit ≤ MAX_PACKET_SIZE ∨
      (diagImage header fixed (keepDiag headerLen propLen ups reasonStr limit).1
        (keepDiag headerLen propLen ups reasonStr limit).2).length ≤ MAX_PACKET_SIZE) :
    sizeWithDiag headerLen propLen ups reasonStr limit =
      (diagImage header fixed (keepDiag headerLen propLen ups reasonStr limit).1
        (keepDiag headerLen propLen ups reasonStr limit).2).length := by
  unfold sizeWithDiag at small ⊢
  dsimp only at small ⊢
  rw [encodedSizeOptProps_eq] at small ⊢
  simp only [diagImage, keepDiag, List.length_append, hheader, hfixed] at small ⊢
  rw [varIntLen_eq (by omega)]
  omega

theorem writes_encodeWithDiag {writeHeader writeFixed : ByteWriter EncodeError Unit}
    (hheader : Writes writeHeader header) (headerSize : header.length = headerLen)
    (hfixed : Writes writeFixed fixed) (fixedSize : fixed.length = propLen)
    (fits : DiagFit (keepDiag headerLen propLen ups reasonStr limit).1
      (keepDiag headerLen propLen ups reasonStr limit).2)
    (small : sizeWithDiag headerLen propLen ups reasonStr limit ≤ MAX_PACKET_SIZE) :
    Writes (encodeWithDiag headerLen writeHeader writeFixed ups reasonStr
        (sizeWithDiag headerLen propLen ups reasonStr limit))
      (diagImage header fixed (keepDiag headerLen propLen ups reasonStr limit).1
        (keepDiag headerLen propLen ups reasonStr limit).2) := by
  have size := sizeWithDiag_eq headerSize fixedSize (.inl small)
  have body := writes_encodeOptProps fits
  rw [encodedSizeOptProps_eq] at body
  rw [size] at small ⊢
  unfold keepDiag at small ⊢
  generalize keepOptProps ups reasonStr (reduceLimit limit (headerLen + 4 + propLen)) = kept
    at small body ⊢
  have total : (diagImage header fixed kept.1 kept.2).length = headerLen +
      ((varInt (fixed ++ optPropsImage kept.1 kept.2).length).length +
        (fixed ++ optPropsImage kept.1 kept.2).length) := by
    rw [diagImage, List.length_append, List.length_append, headerSize]
  have propSmall : (fixed ++ optPropsImage kept.1 kept.2).length ≤ MAX_PACKET_SIZE := by omega
  have parts : diagImage header fixed kept.1 kept.2 =
      (header ++ (varInt (fixed ++ optPropsImage kept.1 kept.2).length ++ fixed)) ++
        optPropsImage kept.1 kept.2 := by
    simp only [diagImage, List.append_assoc]
  rw [parts]
  refine Writes.counted ?_ ?_
  · refine hheader.bind (Writes.bind_checkedSub (parts ▸ total) ?_)
    rw [varIntLenFromSize_eq propSmall]
    exact (writes_writeVariableLength propSmall).bind hfixed
  · exact Writes.bind_checkedSub (List.length_append) body

/-- Nothing is cut from a packet that fits. -/
theorem keepDiag_eq_self (headerSize : header.length = headerLen) (few : headerLen ≤ 4)
    (fixedSize : fixed.length = propLen)
    (h : (diagImage header fixed ups reasonStr).length ≤ MAX_PACKET_SIZE) :
    keepDiag headerLen propLen ups reasonStr MAX_PACKET_SIZE = (ups, reasonStr) := by
  rw [diagImage, List.length_append, List.length_append] at h
  have room := add_four_le_of_varInt (n := (fixed ++ optPropsImage ups reasonStr).length)
    (m := headerLen) (by omega) (by omega)
  rw [List.length_append] at room
  refine keepOptProps_of_le ?_
  rw [reduceLimit, if_neg (by omega)]
  omega

theorem length_fixed_le_diagImage :
    (fixed ++ optPropsImage ups reasonStr).length ≤
      (diagImage header fixed ups reasonStr).length := by
  simp only [diagImage, List.length_append]
  omega

end Diag

/-! ## Properties of acknowledgments -/

/-- `ack_props::encoded_size` -/
def ackPropsEncodedSize (properties : UserProperties) (reasonString : Option ByteString)
    (limit : Nat) : Nat :=
  if limit < 4 then 1
  else
    let len := encodedSizeOptProps properties reasonString (limit - 4)
    varIntLen len + len

/-- `ack_props::encode` -/
def ackPropsEncode (properties : UserProperties) (reasonString : Option ByteString) (size : Nat) :
    ByteWriter EncodeError Unit :=
  if size = 0 then crash .assertion
  else if size = 1 then putU8 0
  else do
    let size ← varIntLenFromSize size
    writeVariableLength size
    encodeOptProps properties reasonString size

/-- What `ack_props::decode` collects. -/
structure AckProps : Type where
  userProps : UserProperties := []
  reasonString : Option ByteString := none

/-- The dispatch of `ack_props::decode` on the property type. -/
def AckProps.read (acc : AckProps) : UInt8 → Reader DecodeError AckProps
  | pt.REASON_STRING => do return { acc with reasonString := ← readValue acc.reasonString }
  | pt.USER => do return { acc with userProps := acc.userProps ++ [← decode] }
  | _ => fail .malformedPacket

/-- `ack_props::decode` -/
def ackPropsDecode : Reader DecodeError (UserProperties × Option ByteString) := do
  let props ← readProperties AckProps.read {}
  return (props.userProps, props.reasonString)

/-- What is kept of the properties of an acknowledgment. -/
def keepAckProps (ups : UserProperties) (reasonStr : Option ByteString) (limit : Nat) :
    UserProperties × Option ByteString :=
  if limit < 4 then ([], none) else keepOptProps ups reasonStr (limit - 4)

/-- The bytes of the property block of an acknowledgment. -/
def ackPropsImage (ups : UserProperties) (reasonStr : Option ByteString) : Bytes :=
  varInt (optPropsImage ups reasonStr).length ++ optPropsImage ups reasonStr

theorem ackPropsImage_ne_nil (ups : UserProperties) (reasonStr : Option ByteString) :
    ackPropsImage ups reasonStr ≠ [] := varInt_append_ne_nil _ _

theorem keepAckProps_of_le {ups : UserProperties} {reasonStr : Option ByteString} {limit : Nat}
    (h : (optPropsImage ups reasonStr).length + 4 ≤ limit) :
    keepAckProps ups reasonStr limit = (ups, reasonStr) := by
  rw [keepAckProps, if_neg (by omega)]
  exact keepOptProps_of_le (by omega)

/-- Nothing is lost exactly when there is nothing, or when there is room for four bytes more. -/
theorem keepAckProps_eq_self_iff {ups : UserProperties} {reasonStr : Option ByteString}
    {limit : Nat} :
    keepAckProps ups reasonStr limit = (ups, reasonStr) ↔
      (ups = [] ∧ reasonStr = none) ∨ (optPropsImage ups reasonStr).length + 4 ≤ limit := by
  constructor
  · intro kept
    unfold keepAckProps at kept
    split at kept
    · cases kept
      exact .inl ⟨rfl, rfl⟩
    · have bound := length_keepOptProps_le ups reasonStr (limit - 4)
      rw [kept] at bound
      dsimp only at bound
      exact .inr (by omega)
  · intro room
    rcases room with ⟨rfl, rfl⟩ | room
    · unfold keepAckProps
      split <;> rfl
    · exact keepAckProps_of_le room

theorem keepAckProps_spec (ups : UserProperties) (reasonStr : Option ByteString) (limit : Nat) :
    (keepAckProps ups reasonStr limit).1 <+: ups ∧
      ((keepAckProps ups reasonStr limit).2 = none ∨
        (keepAckProps ups reasonStr limit).2 = reasonStr ∧
          (keepAckProps ups reasonStr limit).1 = ups) := by
  unfold keepAckProps
  split
  · exact ⟨List.nil_prefix, .inl rfl⟩
  · exact keepOptProps_spec ups reasonStr (limit - 4)

theorem DiagFit.keepAck {ups : UserProperties} {reasonStr : Option ByteString}
    (fits : DiagFit ups reasonStr) (limit : Nat) :
    DiagFit (keepAckProps ups reasonStr limit).1 (keepAckProps ups reasonStr limit).2 := by
  unfold keepAckProps
  split
  · exact ⟨fun up hup => (List.not_mem_nil hup).elim, fun r hr => by cases hr⟩
  · exact fits.keep (limit - 4)

theorem length_optPropsImage_le_ackPropsEncodedSize (ups : UserProperties)
    (reasonStr : Option ByteString) (limit : Nat) :
    (optPropsImage (keepAckProps ups reasonStr limit).1
      (keepAckProps ups reasonStr limit).2).length ≤ ackPropsEncodedSize ups reasonStr limit := by
  unfold keepAckProps ackPropsEncodedSize
  split
  · exact Nat.zero_le 1
  · rw [encodedSizeOptProps_eq]
    exact Nat.le_add_left _ _

/-- The size pass measures the bytes, if what is kept is small. -/
theorem ackPropsEncodedSize_eq {ups : UserProperties} {reasonStr : Option ByteString} {limit : Nat}
    (small : (optPropsImage (keepAckProps ups reasonStr limit).1
      (keepAckProps ups reasonStr limit).2).length ≤ MAX_PACKET_SIZE) :
    ackPropsEncodedSize ups reasonStr limit =
      (ackPropsImage (keepAckProps ups reasonStr limit).1
        (keepAckProps ups reasonStr limit).2).length := by
  unfold keepAckProps at small ⊢
  unfold ackPropsEncodedSize ackPropsImage
  by_cases low : limit < 4
  · rw [if_pos low, if_pos low]
    rfl
  · rw [if_neg low] at small
    rw [if_neg low, if_neg low, encodedSizeOptProps_eq]
    dsimp only
    rw [varIntLen_eq small, List.length_append]

theorem writes_ackPropsEncode {ups : UserProperties} {reasonStr : Option ByteString} {limit : Nat}
    (fits : DiagFit (keepAckProps ups reasonStr limit).1 (keepAckProps ups reasonStr limit).2)
    (h : ackPropsEncodedSize ups reasonStr limit ≤ MAX_PACKET_SIZE) :
    Writes (ackPropsEncode ups reasonStr (ackPropsEncodedSize ups reasonStr limit))
      (ackPropsImage (keepAckProps ups reasonStr limit).1
        (keepAckProps ups reasonStr limit).2) := by
  have small := Nat.le_trans (length_optPropsImage_le_ackPropsEncodedSize ups reasonStr limit) h
  rw [ackPropsEncodedSize_eq small]
  unfold keepAckProps at fits small ⊢
  by_cases low : limit < 4
  · rw [if_pos low]
    exact Writes.putU8 0
  · rw [if_neg low] at fits small ⊢
    have body := writes_encodeOptProps fits
    rw [encodedSizeOptProps_eq] at body
    generalize keepOptProps ups reasonStr (limit - 4) = kept at small body ⊢
    unfold ackPropsImage ackPropsEncode
    rw [List.length_append]
    have pos := length_varInt_pos (optPropsImage kept.1 kept.2).length
    rw [if_neg (by omega)]
    by_cases empty : (optPropsImage kept.1 kept.2).length = 0
    · rw [List.eq_nil_of_length_eq_zero empty]
      exact Writes.putU8 0
    · rw [if_neg (by omega), varIntLenFromSize_eq small]
      exact (writes_writeVariableLength small).bind body

theorem feeds_ackProps {ups : UserProperties} {reasonStr : Option ByteString}
    (fits : DiagFit ups reasonStr) :
    FeedsProps AckProps.read {} (optPropsImage ups reasonStr) ⟨ups, reasonStr⟩ :=
  (feeds_users (fun (acc : AckProps) us => { acc with userProps := us }) (fun _ => rfl) rfl
    fits.1).trans
    (feeds_property pt.REASON_STRING (fun (acc : AckProps) x => { acc with reasonString := x })
      reasonStr rfl rfl
      fits.2)

theorem decodes_ackPropsDecode {ups : UserProperties} {reasonStr : Option ByteString}
    (fits : DiagFit ups reasonStr)
    (h : (optPropsImage ups reasonStr).length ≤ MAX_PACKET_SIZE) :
    Decodes ackPropsDecode (ackPropsImage ups reasonStr) (ups, reasonStr) :=
  (decodes_readProperties (feeds_ackProps fits) h).bind_last (Decodes.pure _)

theorem safe_ackProps_read (acc : AckProps) (tag : UInt8) : Safe 0 (acc.read tag) 0 0 := by
  unfold AckProps.read
  split
  · exact (safe_readValue _).bind_zero fun _ => Safe.pure _ 0
  · exact safe_decode.bind_zero fun _ => Safe.pure _ 0
  · exact Safe.fail _ 0 0 0

theorem safe_ackPropsDecode : Safe 0 ackPropsDecode 0 1 :=
  (safe_readProperties safe_ackProps_read _).bind_zero fun _ => Safe.pure _ 0

end OxiMqtt.Codec.V5
