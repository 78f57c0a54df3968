import OxiMqtt.Codec.V5.Debug
import OxiMqtt.Codec.V5.Limit

/-!
# When the MQTT 5 encoder stays within its machine words

The encoder of a debug build (`Debug`) is compared with the encoder on exact numbers.

* `Packet.debug_encodedSize`: the size pass has a value, the exact size, if and only if the limit
  covers what is subtracted from it without a check (`Packet.LimitCovers`) and the sums of lengths
  are in range (`Packet.SumsInRange`).
* `Packet.debug_encode`: after that, the encode pass computes with exact numbers.
* `encode_overflow_free_iff`: the encoder is free of overflows under these two conditions and no
  others.
-/

namespace OxiMqtt.Codec

open Wire Wire.Checked Wire.ByteWriter

namespace V5

/-! ## Conditions -/

/-- The properties that `encoded_size_opt_props` looks at under this limit have sizes in range: the
first one that is dropped is measured too, those after it are not. -/
def DiagInRange : UserProperties → Option ByteString → Nat → Prop
  | [], reasonStr, _ => ∀ reason ∈ reasonStr, 1 + encodedSize reason < 2 ^ 64
  | up :: ups, reasonStr, limit =>
      1 + encodedSize up < 2 ^ 64 ∧
        (1 + encodedSize up ≤ limit → DiagInRange ups reasonStr (limit - (1 + encodedSize up)))

/-- The same for the properties of an acknowledgment, which are not looked at under a limit below
four. -/
def AckInRange (ups : UserProperties) (reasonStr : Option ByteString) (limit : Nat) : Prop :=
  4 ≤ limit → DiagInRange ups reasonStr (limit - 4)

namespace Packet

/-- The limit covers what is subtracted from it without a check: seven bytes for PUBACK, PUBREC,
PUBREL and PUBCOMP, and the packet id and the status codes of a SUBACK, unless there are so many of
them that the size pass gives up before. -/
def LimitCovers (limit : Nat) : Packet → Prop
  | publishAck _ => 7 ≤ limit
  | publishReceived _ => 7 ≤ limit
  | publishRelease _ => 7 ≤ limit
  | publishComplete _ => 7 ≤ limit
  | subscribeAck p => 2 ^ 32 - 3 < p.status.length ∨ 2 + p.status.length ≤ limit
  | _ => True

/-- The sums of lengths that the size pass forms are below `2 ^ 64`. -/
def SumsInRange (limit : Nat) : Packet → Prop
  | connect p => p.encodedSize limit < 2 ^ 64
  | publish p => p.encodedSize limit < 2 ^ 64
  | subscribe p => p.encodedSize limit < 2 ^ 64
  | unsubscribe p => p.encodedSize limit < 2 ^ 64
  | connectAck p => 2 + 10 + p.propLen < 2 ^ 64 ∧
      DiagInRange p.userProperties p.reasonString (limit - (2 + 4 + p.propLen))
  | disconnect p => 1 + 10 + p.propLen < 2 ^ 64 ∧
      DiagInRange p.userProperties p.reasonString (limit - (1 + 4 + p.propLen))
  | auth p => 1 + 10 + p.propLen < 2 ^ 64 ∧
      DiagInRange p.userProperties p.reasonString (limit - (1 + 4 + p.propLen))
  | publishAck p => AckInRange p.properties p.reasonString (limit - 7)
  | publishReceived p => AckInRange p.properties p.reasonString (limit - 7)
  | publishRelease p => AckInRange p.properties p.reasonString (limit - 7)
  | publishComplete p => AckInRange p.properties p.reasonString (limit - 7)
  | subscribeAck p => p.status.length ≤ 2 ^ 32 - 3 →
      AckInRange p.properties p.reasonString (limit - (2 + p.status.length))
  | unsubscribeAck p => 2 + p.status.length + 1 < 2 ^ 64 ∧
      AckInRange p.properties p.reasonString (limit - (2 + p.status.length))
  | _ => True

end Packet

/-! ## The size pass -/

section Property

variable {α : Type} [Encode α] [Debug.Sized α]

theorem debug_encodedPropertySize (v : Option α) :
    Debug.encodedPropertySize v = word (encodedPropertySize v) := by
  cases v with
  | none => rfl
  | some a =>
      rw [Debug.encodedPropertySize, Debug.Sized.encodedSize_eq, ofNat_eq, word_add]
      rfl

theorem debug_encodedPropertySizeDefault [DecidableEq α] (v dflt : α) :
    Debug.encodedPropertySizeDefault v dflt = word (encodedPropertySizeDefault v dflt) := by
  unfold Debug.encodedPropertySizeDefault encodedPropertySizeDefault
  split
  · rfl
  · rw [Debug.Sized.encodedSize_eq, ofNat_eq, word_add]

/-- The size of a value that may be absent. -/
theorem debug_optionSize (v : Option α) :
    (v.map Debug.Sized.encodedSize).getD 0 = word ((v.map encodedSize).getD 0) := by
  cases v with
  | none => rfl
  | some a => exact Debug.Sized.encodedSize_eq a

end Property

/-- The limit and what has been counted never grow beyond the limit at the start, so only the size
of a single property can be out of range. -/
theorem debug_encodedSizeOptPropsLoop (reasonStr : Option ByteString) (ups : UserProperties)
    {limit len : Nat} (bound : len + limit < 2 ^ 32) :
    Evaluates (Debug.encodedSizeOptPropsLoop reasonStr ups limit len)
      (DiagInRange ups reasonStr limit) (encodedSizeOptPropsLoop reasonStr ups limit len) := by
  induction ups generalizing limit len with
  | nil =>
      cases reasonStr with
      | none => exact (evaluates_of_lt (by omega)).congr (by simp [DiagInRange])
      | some reason =>
          rw [Debug.encodedSizeOptPropsLoop, encodedSizeOptPropsLoop, Debug.Sized.encodedSize_eq,
            ofNat_eq, word_add]
          refine ((evaluates_word _).bind (Q := True) fun range => ?_).congr
            (by simp [DiagInRange])
          split
          · rw [word_add]
            exact evaluates_of_lt (by omega)
          · exact evaluates_of_lt (by omega)
  | cons up ups ih =>
      rw [Debug.encodedSizeOptPropsLoop, encodedSizeOptPropsLoop, Debug.Sized.encodedSize_eq,
        ofNat_eq, word_add, DiagInRange]
      refine (evaluates_word _).bind fun range => ?_
      split
      · rename_i above
        exact (evaluates_of_lt (by omega)).congr (by simp; omega)
      · rename_i within
        rw [Nat.mod_eq_of_lt (by omega), word_sub (by omega) (by omega), word_bind (by omega),
          word_add, word_bind (by omega)]
        refine (ih (by omega)).congr ⟨fun rest _ => rest, fun rest => rest (by omega)⟩

theorem debug_encodedSizeOptProps (ups : UserProperties) (reasonStr : Option ByteString)
    {limit : Nat} (bound : limit < 2 ^ 32) :
    Evaluates (Debug.encodedSizeOptProps ups reasonStr limit) (DiagInRange ups reasonStr limit)
      (encodedSizeOptProps ups reasonStr limit) :=
  debug_encodedSizeOptPropsLoop reasonStr ups (by omega)

theorem encodedSizeOptProps_le (ups : UserProperties) (reasonStr : Option ByteString)
    (limit : Nat) : encodedSizeOptProps ups reasonStr limit ≤ limit := by
  rw [encodedSizeOptProps_eq]
  exact length_keepOptProps_le ups reasonStr limit

theorem debug_reduceLimit {limit : Nat} (bound : limit < 2 ^ 32) (reduction : Nat) :
    Debug.reduceLimit limit reduction = .value (reduceLimit limit reduction) := by
  unfold Debug.reduceLimit reduceLimit
  split
  · rfl
  · rw [Nat.mod_eq_of_lt (by omega), word_sub bound (by omega), word_of_lt (by omega)]

theorem leadingZeros_le (bits n : Nat) : leadingZeros bits n ≤ bits := by
  unfold leadingZeros
  split
  · exact Nat.le_refl bits
  · omega

theorem varIntLen_le (n : Nat) : varIntLen n ≤ 10 := by
  have table : ∀ k, k < 65 → varIntLenMap.getD k 0 ≤ 10 := by decide
  exact table _ (Nat.lt_succ_of_le (leadingZeros_le 64 n))

theorem varIntLen_pos (n : Nat) : 0 < varIntLen n := by
  have table : ∀ k, k < 65 → 0 < varIntLenMap.getD k 0 := by decide
  exact table _ (Nat.lt_succ_of_le (leadingZeros_le 64 n))

/-- The largest words have no leading zeros. -/
theorem varIntLen_of_large {n : Nat} (h : 2 ^ 63 ≤ n) (h' : n < 2 ^ 64) : varIntLen n = 10 := by
  have log : n.log2 = 63 := (Nat.log2_eq_iff (by omega)).mpr ⟨h, h'⟩
  rw [varIntLen, leadingZeros, if_neg (by omega), log]
  rfl

theorem debug_sizeWithDiag {headerLen propLen limit : Nat} {x : Debug.Usize} (few : headerLen ≤ 2)
    (bound : limit < 2 ^ 32) (hx : x = word propLen) (ups : UserProperties)
    (reasonStr : Option ByteString) :
    Evaluates (Debug.sizeWithDiag headerLen x ups reasonStr limit)
      (headerLen + 10 + propLen < 2 ^ 64 ∧
        DiagInRange ups reasonStr (limit - (headerLen + 4 + propLen)))
      (sizeWithDiag headerLen propLen ups reasonStr limit) := by
  have diagLe := encodedSizeOptProps_le ups reasonStr (limit - (headerLen + 4 + propLen))
  rw [hx]
  unfold Debug.sizeWithDiag sizeWithDiag
  simp only [ofNat_eq, word_add, debug_reduceLimit bound, value_bind, reduceLimit_eq]
  have diag := debug_encodedSizeOptProps ups reasonStr
    (show limit - (headerLen + 4 + propLen) < 2 ^ 32 by omega)
  generalize encodedSizeOptProps ups reasonStr (limit - (headerLen + 4 + propLen)) = diagLen
    at diagLe diag ⊢
  have total := evaluates_word (w := 64)
    (headerLen + varIntLen (propLen + diagLen) + (propLen + diagLen))
  refine ((evaluates_word propLen).bind fun _ => (evaluates_word _).bind fun _ =>
    diag.bind fun _ => (evaluates_word (propLen + diagLen)).bind fun _ => total).congr ?_
  have few' := varIntLen_le (propLen + diagLen)
  constructor
  · rintro ⟨-, -, inRange, small, total⟩
    refine ⟨?_, inRange⟩
    rcases Nat.lt_or_ge (propLen + diagLen) (2 ^ 63) with low | high
    · omega
    · rw [varIntLen_of_large high small] at total
      omega
  · rintro ⟨small, inRange⟩
    exact ⟨by omega, by omega, inRange, by omega, by omega⟩

theorem debug_ackPropsEncodedSize {limit : Nat} (bound : limit < 2 ^ 32) (ups : UserProperties)
    (reasonStr : Option ByteString) :
    Evaluates (Debug.ackPropsEncodedSize ups reasonStr limit) (AckInRange ups reasonStr limit)
      (ackPropsEncodedSize ups reasonStr limit) := by
  unfold Debug.ackPropsEncodedSize ackPropsEncodedSize AckInRange
  by_cases low : limit < 4
  · rw [if_pos low, if_pos low]
    exact (evaluates_of_lt (by decide)).congr ⟨fun _ h => absurd low (by omega), fun _ => trivial⟩
  · have diag := debug_encodedSizeOptProps ups reasonStr (show limit - 4 < 2 ^ 32 by omega)
    have diagLe := encodedSizeOptProps_le ups reasonStr (limit - 4)
    rw [if_neg low, if_neg low, ofNat_eq, word_sub bound (by omega), word_bind (by omega)]
    dsimp only
    generalize encodedSizeOptProps ups reasonStr (limit - 4) = len at diag diagLe ⊢
    have few := varIntLen_le len
    refine (diag.bind (Q := True) fun _ => ?_).congr ⟨fun h _ => h.1, fun h => ⟨h (by omega), trivial⟩⟩
    rw [word_add]
    exact evaluates_of_lt (by omega)

theorem ackPropsEncodedSize_le (ups : UserProperties) (reasonStr : Option ByteString)
    (limit : Nat) : ackPropsEncodedSize ups reasonStr limit ≤ limit + 10 := by
  unfold ackPropsEncodedSize
  split
  · omega
  · have diagLe := encodedSizeOptProps_le ups reasonStr (limit - 4)
    have few := varIntLen_le (encodedSizeOptProps ups reasonStr (limit - 4))
    dsimp only
    omega

theorem ackPropsEncodedSize_pos (ups : UserProperties) (reasonStr : Option ByteString)
    (limit : Nat) : 0 < ackPropsEncodedSize ups reasonStr limit := by
  unfold ackPropsEncodedSize
  split
  · decide
  · exact Nat.add_pos_left (varIntLen_pos _) _

theorem PublishAckOf.debug_encodedSize {ρ : Type} (p : PublishAckOf ρ) {limit : Nat}
    (bound : limit < 2 ^ 32) :
    Evaluates (Debug.PublishAckOf.encodedSize p limit)
      (7 ≤ limit ∧ AckInRange p.properties p.reasonString (limit - 7))
      (3 + ackPropsEncodedSize p.properties p.reasonString (limit - 7)) := by
  have props := debug_ackPropsEncodedSize (show limit - 7 < 2 ^ 32 by omega) p.properties
    p.reasonString
  have propsLe := ackPropsEncodedSize_le p.properties p.reasonString (limit - 7)
  have rest := ((evaluates_of_lt bound).sub_word bound 3).sub_word (by omega) 4
  have three : Evaluates (3 : Debug.Usize) True 3 := evaluates_of_lt (by decide)
  refine (rest.bind fun _ => three.add props).congr ?_
  constructor
  · rintro ⟨⟨_, _⟩, -, inRange, -⟩
    exact ⟨by omega, inRange⟩
  · rintro ⟨_, inRange⟩
    exact ⟨⟨⟨trivial, by omega⟩, by omega⟩, trivial, inRange, by omega⟩

theorem SubscribeAck.debug_encodedSize {p : SubscribeAck} {limit : Nat} (bound : limit < 2 ^ 32)
    (few : p.status.length ≤ 2 ^ 32 - 3) :
    Evaluates (Debug.SubscribeAck.encodedSize p limit)
      (2 + p.status.length ≤ limit ∧
        AckInRange p.properties p.reasonString (limit - (2 + p.status.length)))
      (2 + ackPropsEncodedSize p.properties p.reasonString (limit - (2 + p.status.length)) +
        p.status.length) := by
  have props := debug_ackPropsEncodedSize
    (show limit - (2 + p.status.length) < 2 ^ 32 by omega) p.properties p.reasonString
  have propsLe := ackPropsEncodedSize_le p.properties p.reasonString
    (limit - (2 + p.status.length))
  have rest := ((evaluates_of_lt bound).sub_word bound 2).sub_word (by omega) p.status.length
  have two : Evaluates (2 : Debug.Usize) True 2 := evaluates_of_lt (by decide)
  have len : Evaluates (word p.status.length : Debug.Usize) True p.status.length :=
    evaluates_of_lt (by omega)
  unfold Debug.SubscribeAck.encodedSize
  dsimp only
  rw [if_neg (by omega), Nat.mod_eq_of_lt (by omega)]
  rw [Nat.sub_sub] at rest
  refine (rest.bind fun _ => (two.add props).add len).congr ?_
  constructor
  · rintro ⟨⟨_, _⟩, ⟨-, inRange, -⟩, -⟩
    exact ⟨by omega, inRange⟩
  · rintro ⟨_, inRange⟩
    exact ⟨⟨⟨trivial, by omega⟩, by omega⟩, ⟨trivial, inRange, by omega⟩, trivial, by omega⟩

theorem UnsubscribeAck.debug_encodedSize (p : UnsubscribeAck) {limit : Nat}
    (bound : limit < 2 ^ 32) :
    Evaluates (Debug.UnsubscribeAck.encodedSize p limit)
      (2 + p.status.length + 1 < 2 ^ 64 ∧
        AckInRange p.properties p.reasonString (limit - (2 + p.status.length)))
      (p.encodedSize limit) := by
  have props := debug_ackPropsEncodedSize
    (show limit - (2 + p.status.length) < 2 ^ 32 by omega) p.properties p.reasonString
  have propsLe := ackPropsEncodedSize_le p.properties p.reasonString
    (limit - (2 + p.status.length))
  have one : limit < 2 + p.status.length → ackPropsEncodedSize p.properties p.reasonString
      (limit - (2 + p.status.length)) = 1 := fun above => if_pos (by omega)
  have pos := ackPropsEncodedSize_pos p.properties p.reasonString (limit - (2 + p.status.length))
  unfold Debug.UnsubscribeAck.encodedSize UnsubscribeAck.encodedSize
  simp only [ofNat_eq, word_add, debug_reduceLimit bound, value_bind, reduceLimit_eq]
  refine ((evaluates_word _).bind fun _ => (evaluates_word _).add props).congr ?_
  constructor
  · rintro ⟨_, -, inRange, total⟩
    exact ⟨by omega, inRange⟩
  · rintro ⟨small, inRange⟩
    refine ⟨by omega, by omega, inRange, ?_⟩
    rcases Nat.lt_or_ge limit (2 + p.status.length) with above | within
    · have := one above
      omega
    · omega

theorem LastWill.debug_propertiesLen (w : LastWill) :
    Debug.LastWill.propertiesLen w = word w.propertiesLen := by
  simp only [Debug.LastWill.propertiesLen, debug_encodedPropertySize, Debug.Sized.encodedSize_eq,
    word_add]
  rfl

theorem LastWill.debug_size (w : LastWill) : Debug.LastWill.size w = word w.size := by
  simp only [Debug.LastWill.size, debug_propertiesLen, Debug.Sized.encodedSize_eq, word_add]
  exact word_bind_word (by omega)

theorem Connect.debug_propertiesLen (p : Connect) :
    Debug.Connect.propertiesLen p = word p.propertiesLen := by
  simp only [Debug.Connect.propertiesLen, debug_encodedPropertySize,
    debug_encodedPropertySizeDefault, Debug.Sized.encodedSize_eq, word_add]
  rfl

theorem Connect.debug_encodedSize (p : Connect) (limit : Nat) :
    Debug.Connect.encodedSize p limit = word (p.encodedSize limit) := by
  have will : (p.lastWill.map Debug.LastWill.size).getD 0 =
      word ((p.lastWill.map LastWill.size).getD 0) := by
    cases p.lastWill with
    | none => rfl
    | some w => exact w.debug_size
  rw [Debug.Connect.encodedSize, debug_propertiesLen, will, debug_optionSize, debug_optionSize]
  simp only [Debug.Sized.encodedSize_eq, ofNat_eq, word_add]
  exact word_bind_word (by omega)

theorem ConnectAck.debug_propLen (p : ConnectAck) : Debug.ConnectAck.propLen p = word p.propLen := by
  have maxQos : (if p.maxQos.value < QoS.exactlyOnce.value then 1 + 1 else 0 : Debug.Usize) =
      word (if p.maxQos.value < QoS.exactlyOnce.value then 1 + 1 else 0) := by
    split <;> rfl
  have topicAlias : (if p.topicAliasMax > 0 then 1 + Debug.Sized.encodedSize p.topicAliasMax
      else 0 : Debug.Usize) =
      word (if p.topicAliasMax > 0 then 1 + Codec.encodedSize p.topicAliasMax else 0) := by
    split <;> rfl
  rw [Debug.ConnectAck.propLen, maxQos, topicAlias]
  simp only [debug_encodedPropertySize, debug_encodedPropertySizeDefault, word_add]
  rfl

theorem Disconnect.debug_propLen (p : Disconnect) :
    (Debug.encodedPropertySize p.sessionExpiryIntervalSecs +
      Debug.encodedPropertySize p.serverReference) = word p.propLen := by
  rw [debug_encodedPropertySize, debug_encodedPropertySize, word_add]
  rfl

theorem Auth.debug_propLen (p : Auth) :
    (Debug.encodedPropertySize p.authMethod + Debug.encodedPropertySize p.authData) =
      word p.propLen := by
  rw [debug_encodedPropertySize, debug_encodedPropertySize, word_add]
  rfl

end V5

open V5

theorem PublishProperties.debug_propLen (p : PublishProperties) :
    Debug.PublishProperties.propLen p = word p.propLen := by
  have ids : p.subscriptionIds.foldl (fun acc id => acc + 1 + word (varIntLen id.val.toNat))
      (0 : Debug.Usize) =
      word (p.subscriptionIds.foldl (fun acc id => acc + (1 + varIntLen id.val.toNat)) 0) := by
    refine foldl_word (fun n id => ?_) p.subscriptionIds 0
    rw [ofNat_eq, word_add, word_add, Nat.add_assoc]
  simp only [Debug.PublishProperties.propLen, debug_encodedPropertySize,
    debug_encodedPropertySizeDefault, Debug.Sized.encodedSize_eq, ids, word_add]
  rfl

theorem PublishProperties.debug_encodedSize (p : PublishProperties) (limit : Nat) :
    Debug.PublishProperties.encodedSize p limit = word (p.encodedSize limit) := by
  simp only [Debug.PublishProperties.encodedSize, debug_propLen, word_add]
  exact word_bind_word (Nat.le_add_right _ _)

theorem Publish.debug_encodedSize (p : Publish) (limit : Nat) :
    Debug.Publish.encodedSize p limit = word (p.encodedSize limit) := by
  have packetId : (if p.qos = .atMostOnce then 0 else 2 : Debug.Usize) =
      word (if p.qos = .atMostOnce then 0 else 2) := by
    split <;> rfl
  simp only [Debug.Publish.encodedSize, packetId, Debug.Sized.encodedSize_eq,
    PublishProperties.debug_encodedSize, word_add]
  rfl

namespace V5

/-- The size of the subscription identifier, a `usize` in the one pass and a `u32` in the other. -/
theorem debug_subIdSize {w : Nat} (id : Option NonZeroU32) :
    (id.map fun v => 1 + word (varIntLen v.val.toNat)).getD (0 : Checked w) =
      word ((id.map fun v => 1 + varIntLen v.val.toNat).getD 0) := by
  cases id with
  | none => rfl
  | some v => exact word_add _ _

theorem Subscribe.debug_propLen (p : Subscribe) : Debug.Subscribe.propLen p = word p.propLen := by
  rw [Debug.Subscribe.propLen, debug_subIdSize, Debug.Sized.encodedSize_eq, word_add]
  rfl

theorem Subscribe.debug_encodedSize (p : Subscribe) (limit : Nat) :
    Debug.Subscribe.encodedSize p limit = word (p.encodedSize limit) := by
  have filters : p.topicFilters.foldl (fun acc f => acc + Debug.Sized.encodedSize f.1 + 1)
      (0 : Debug.Usize) =
      word (p.topicFilters.foldl (fun acc f => acc + (Codec.encodedSize f.1 + 1)) 0) := by
    refine foldl_word (fun n f => ?_) p.topicFilters 0
    rw [Debug.Sized.encodedSize_eq, ofNat_eq, word_add, word_add, Nat.add_assoc]
  rw [Debug.Subscribe.encodedSize, debug_propLen, filters]
  simp only [Debug.Sized.encodedSize_eq, word_add]
  refine (congrArg _ (funext fun propLen => word_bind_word (by omega))).trans ?_
  exact word_bind_word (by omega)

theorem Unsubscribe.debug_encodedSize (p : Unsubscribe) (limit : Nat) :
    Debug.Unsubscribe.encodedSize p limit = word (p.encodedSize limit) := by
  have filters : p.topicFilters.foldl (fun acc filter => acc + 2 + word (ByteString.len filter))
      (0 : Debug.Usize) =
      word (p.topicFilters.foldl (fun acc filter => acc + (2 + ByteString.len filter)) 0) := by
    refine foldl_word (fun n filter => ?_) p.topicFilters 0
    rw [ofNat_eq, word_add, word_add, Nat.add_assoc]
  rw [Debug.Unsubscribe.encodedSize, filters]
  simp only [Debug.Sized.encodedSize_eq, ofNat_eq, word_add]
  exact word_bind_word (by omega)

theorem PublishAckOf.encodedSize_of_le {ρ : Type} (p : PublishAckOf ρ) {limit : Nat}
    (covers : 7 ≤ limit) : p.encodedSize limit =
      .ok (3 + ackPropsEncodedSize p.properties p.reasonString (limit - 7)) := by
  have first : subU32 limit 3 = .ok (limit - 3) := subU32_eq_ok.mpr ⟨by omega, rfl⟩
  have second : subU32 (limit - 3) 4 = .ok (limit - 7) :=
    subU32_eq_ok.mpr ⟨by omega, Nat.sub_sub _ _ _⟩
  rw [PublishAckOf.encodedSize, first, Outcome.ok_bind, second]
  rfl

theorem SubscribeAck.encodedSize_of_le {p : SubscribeAck} {limit : Nat}
    (few : p.status.length ≤ 2 ^ 32 - 3) (covers : 2 + p.status.length ≤ limit) :
    p.encodedSize limit = .ok (2 + ackPropsEncodedSize p.properties p.reasonString
      (limit - (2 + p.status.length)) + p.status.length) := by
  have first : subU32 limit 2 = .ok (limit - 2) := subU32_eq_ok.mpr ⟨by omega, rfl⟩
  have second : subU32 (limit - 2) p.status.length = .ok (limit - (2 + p.status.length)) :=
    subU32_eq_ok.mpr ⟨by omega, Nat.sub_sub _ _ _⟩
  unfold SubscribeAck.encodedSize
  dsimp only
  rw [if_neg (by omega), first, Outcome.ok_bind, second]
  rfl

namespace Packet

/-- The size pass has a value, the exact size, if and only if the two conditions hold. -/
theorem debug_encodedSize (p : Packet) {limit : Nat} (bound : limit < 2 ^ 32) :
    ∃ n, Evaluates (Debug.Packet.encodedSize limit p)
        (p.LimitCovers limit ∧ p.SumsInRange limit) n ∧
      (p.LimitCovers limit → p.encodedSize limit = .ok n) := by
  have both : ∀ {x : Debug.Usize} {P : Prop} {n : Nat}, Evaluates x P n →
      Evaluates x (True ∧ P) n := fun h => h.congr (iff_of_eq (true_and _).symm)
  have plain : ∀ {x : Debug.Usize} {n : Nat}, x = word n → Evaluates x (True ∧ n < 2 ^ 64) n := by
    intro x n h
    rw [h]
    exact both (evaluates_word n)
  cases p with
  | connect p => exact ⟨_, plain (p.debug_encodedSize limit), fun _ => rfl⟩
  | publish p => exact ⟨_, plain (p.debug_encodedSize limit), fun _ => rfl⟩
  | subscribe p => exact ⟨_, plain (p.debug_encodedSize limit), fun _ => rfl⟩
  | unsubscribe p => exact ⟨_, plain (p.debug_encodedSize limit), fun _ => rfl⟩
  | connectAck p =>
      exact ⟨_, both (debug_sizeWithDiag (Nat.le_refl 2) bound p.debug_propLen _ _), fun _ => rfl⟩
  | disconnect p =>
      exact ⟨_, both (debug_sizeWithDiag (Nat.le_succ 1) bound p.debug_propLen _ _), fun _ => rfl⟩
  | auth p =>
      exact ⟨_, both (debug_sizeWithDiag (Nat.le_succ 1) bound p.debug_propLen _ _), fun _ => rfl⟩
  | publishAck p => exact ⟨_, p.debug_encodedSize bound, p.encodedSize_of_le⟩
  | publishReceived p => exact ⟨_, p.debug_encodedSize bound, p.encodedSize_of_le⟩
  | publishRelease p => exact ⟨_, p.debug_encodedSize bound, p.encodedSize_of_le⟩
  | publishComplete p => exact ⟨_, p.debug_encodedSize bound, p.encodedSize_of_le⟩
  | subscribeAck p =>
      rcases Nat.lt_or_ge (2 ^ 32 - 3) p.status.length with many | few
      · refine ⟨2 ^ 64 - 1, ⟨fun _ => if_pos many, fun not => (not ?_).elim⟩, fun _ => if_pos many⟩
        exact ⟨.inl many, fun few => absurd many (by omega)⟩
      · have covers : (subscribeAck p).LimitCovers limit ↔ 2 + p.status.length ≤ limit :=
          ⟨fun h => h.resolve_left (by omega), .inr⟩
        refine ⟨_, (SubscribeAck.debug_encodedSize bound few).congr ?_,
          fun h => SubscribeAck.encodedSize_of_le few (covers.mp h)⟩
        exact and_congr covers.symm ⟨fun h _ => h, fun h => h few⟩
  | unsubscribeAck p =>
      exact ⟨_, both (UnsubscribeAck.debug_encodedSize p bound), fun _ => rfl⟩
  | pingRequest => exact ⟨0, ⟨fun _ => rfl, fun h => (h ⟨trivial, trivial⟩).elim⟩, fun _ => rfl⟩
  | pingResponse => exact ⟨0, ⟨fun _ => rfl, fun h => (h ⟨trivial, trivial⟩).elim⟩, fun _ => rfl⟩

end Packet

/-! ## The encode pass -/

theorem varIntLenU32_pos (n : Nat) : 0 < varIntLenU32 n := by
  have table : ∀ k, k < 33 → 0 < varIntLenU32Map.getD k 0 := by decide
  exact table _ (Nat.lt_succ_of_le (leadingZeros_le 32 n))

theorem debug_varIntLenFromSize {val : Nat} (bound : val < 2 ^ 32) :
    fromChecked (Debug.varIntLenFromSize val) = varIntLenFromSize val := by
  have pos := varIntLenU32_pos val
  unfold Debug.varIntLenFromSize varIntLenFromSize
  dsimp only
  by_cases h : varIntLenU32 val ≤ val
  · have first : (checkedSub val (varIntLenU32 val) : ByteWriter EncodeError Nat) =
        pure (val - varIntLenU32 val) := checkedSub_of_eq (by omega)
    rw [word_sub bound h, ofNat_eq, word_add, word_bind (by omega), fromChecked_sub bound, first]
    rfl
  · rw [word_sub_of_lt (Nat.lt_of_not_le h), checkedSub, if_neg h]
    rfl

/-- The encode pass measures no property that the size pass has not measured. -/
theorem debug_encodeOptProps {ups : UserProperties} {reasonStr : Option ByteString} {limit : Nat}
    (bound : limit < 2 ^ 32) (inRange : DiagInRange ups reasonStr limit) :
    Debug.encodeOptProps ups reasonStr (encodedSizeOptProps ups reasonStr limit) =
      encodeOptProps ups reasonStr (encodedSizeOptProps ups reasonStr limit) := by
  induction ups generalizing limit with
  | nil => rfl
  | cons up ups ih =>
      have pair : 1 + encodedSize up.1 + encodedSize up.2 = 1 + encodedSize up := Nat.add_assoc _ _ _
      rcases inRange with ⟨single, rest⟩
      rw [Debug.encodeOptProps, encodeOptProps, Debug.Sized.encodedSize_eq,
        Debug.Sized.encodedSize_eq, ofNat_eq, word_add, word_add, pair, fromChecked_word single,
        pure_then]
      rcases Nat.lt_or_ge limit (1 + encodedSize up) with above | within
      · rw [encodedSizeOptProps_cons_of_lt above, if_pos (by omega), if_pos (by omega)]
      · have tail := ih (show limit - (1 + encodedSize up) < 2 ^ 32 by omega) (rest within)
        have tailLe := encodedSizeOptProps_le ups reasonStr (limit - (1 + encodedSize up))
        rw [encodedSizeOptProps_cons_of_le within]
        generalize encodedSizeOptProps ups reasonStr (limit - (1 + encodedSize up)) = len
          at tail tailLe ⊢
        have left : (checkedSub (1 + encodedSize up + len) (1 + encodedSize up) :
            ByteWriter EncodeError Nat) = pure len := checkedSub_of_eq rfl
        rw [if_neg (by omega), if_neg (by omega), Nat.mod_eq_of_lt (by omega),
          fromChecked_sub (by omega), left, Nat.add_sub_cancel_left, ← tail]
        rfl

/-- A difference of words that stays above zero. -/
theorem fromChecked_sub_of_eq {a b c : Nat} (ha : a < 2 ^ 32) (h : a = b + c) :
    (fromChecked (word a - word b : Debug.U32) : ByteWriter EncodeError Nat) = pure c := by
  rw [fromChecked_sub ha, checkedSub_of_eq h]

theorem debug_encodeWithDiag {headerLen propLen limit : Nat}
    {header fixed : ByteWriter EncodeError Unit} {ups : UserProperties}
    {reasonStr : Option ByteString} (hheader : Emits header headerLen) (hfixed : Emits fixed propLen)
    (bound : limit < 2 ^ 32)
    (inRange : DiagInRange ups reasonStr (limit - (headerLen + 4 + propLen)))
    (small : sizeWithDiag headerLen propLen ups reasonStr limit ≤ MAX_PACKET_SIZE) :
    Debug.encodeWithDiag headerLen header fixed ups reasonStr
        (sizeWithDiag headerLen propLen ups reasonStr limit) =
      encodeWithDiag headerLen header fixed ups reasonStr
        (sizeWithDiag headerLen propLen ups reasonStr limit) := by
  have diag := debug_encodeOptProps (by omega) inRange
  unfold sizeWithDiag at small ⊢
  rw [reduceLimit_eq] at small ⊢
  dsimp only at small ⊢
  generalize encodedSizeOptProps ups reasonStr (limit - (headerLen + 4 + propLen)) =
    diagLen at small diag ⊢
  have words : headerLen + varIntLen (propLen + diagLen) + (propLen + diagLen) < 2 ^ 32 := by
    unfold MAX_PACKET_SIZE at small
    omega
  have before := emits_beforeDiag hheader hfixed
    (show propLen + diagLen ≤ MAX_PACKET_SIZE by omega)
  have sizes : headerLen + varIntLen (propLen + diagLen) + (propLen + diagLen) =
      headerLen + (varIntLen (propLen + diagLen) + (propLen + diagLen)) := Nat.add_assoc _ _ _
  have rest : headerLen + varIntLen (propLen + diagLen) + (propLen + diagLen) =
      headerLen + (varIntLen (propLen + diagLen) + propLen) + diagLen := by omega
  unfold Debug.encodeWithDiag encodeWithDiag
  rw [fromChecked_sub_of_eq words sizes, pure_then, debug_varIntLenFromSize (by omega)]
  rw [checkedSub_of_eq sizes, pure_then] at before ⊢
  refine countedChecked_eq before ?_
  rw [Nat.mod_eq_of_lt (by omega), fromChecked_sub_of_eq words rest, checkedSub_of_eq rest,
    pure_then, pure_then, diag]

theorem debug_ackPropsEncode {ups : UserProperties} {reasonStr : Option ByteString} {limit : Nat}
    (bound : limit < 2 ^ 32) (inRange : AckInRange ups reasonStr limit)
    (small : ackPropsEncodedSize ups reasonStr limit ≤ MAX_PACKET_SIZE) :
    Debug.ackPropsEncode ups reasonStr (ackPropsEncodedSize ups reasonStr limit) =
      ackPropsEncode ups reasonStr (ackPropsEncodedSize ups reasonStr limit) := by
  unfold ackPropsEncodedSize at small ⊢
  by_cases low : limit < 4
  · rw [if_pos low]
    rfl
  · have diag := debug_encodeOptProps (by omega) (inRange (Nat.le_of_not_lt low))
    rw [if_neg low] at small ⊢
    dsimp only at small ⊢
    generalize encodedSizeOptProps ups reasonStr (limit - 4) = len at small diag ⊢
    unfold Debug.ackPropsEncode ackPropsEncode
    have words : varIntLen len + len < 2 ^ 32 := by
      unfold MAX_PACKET_SIZE at small
      omega
    rw [debug_varIntLenFromSize words, varIntLenFromSize_of_small (by omega), pure_then, pure_then,
      diag]

theorem PublishAckOf.debug_encode {ρ : Type} [PrimEnum ρ] {p : PublishAckOf ρ} {limit n : Nat}
    (bound : limit < 2 ^ 32) (inRange : AckInRange p.properties p.reasonString (limit - 7))
    (size : p.encodedSize limit = .ok n) (small : n ≤ MAX_PACKET_SIZE) :
    Debug.PublishAckOf.encode p n = p.encode n := by
  have parts := encodedSize_eq_ok size
  have words : n < 2 ^ 32 := by
    unfold MAX_PACKET_SIZE at small
    omega
  have props := debug_ackPropsEncode (by omega) inRange (by omega)
  unfold Debug.PublishAckOf.encode PublishAckOf.encode
  rw [ofNat_eq, fromChecked_sub_of_eq words parts, checkedSub_of_eq parts, pure_then, pure_then,
    props]

theorem StatusAckOf.debug_encode {ρ : Type} [PrimEnum ρ] {p : StatusAckOf ρ} {limit : Nat}
    (bound : limit < 2 ^ 32) (inRange : AckInRange p.properties p.reasonString limit)
    (small : 2 + ackPropsEncodedSize p.properties p.reasonString limit + p.status.length ≤
      MAX_PACKET_SIZE) :
    Debug.StatusAckOf.encode p
        (2 + ackPropsEncodedSize p.properties p.reasonString limit + p.status.length) =
      p.encode
        (2 + ackPropsEncodedSize p.properties p.reasonString limit + p.status.length) := by
  have props := debug_ackPropsEncode bound inRange (by omega)
  generalize ackPropsEncodedSize p.properties p.reasonString limit = propLen at small props ⊢
  have words : 2 + propLen + p.status.length < 2 ^ 32 := by
    unfold MAX_PACKET_SIZE at small
    omega
  have first : 2 + propLen + p.status.length = 2 + (propLen + p.status.length) :=
    Nat.add_assoc _ _ _
  have second : propLen + p.status.length = p.status.length + propLen := Nat.add_comm _ _
  unfold Debug.StatusAckOf.encode StatusAckOf.encode
  dsimp only
  rw [ofNat_eq, word_sub words (by omega), checkedSub_of_eq first, pure_then, first,
    Nat.add_sub_cancel_left, Nat.mod_eq_of_lt (by omega), fromChecked_sub_of_eq (by omega) second,
    checkedSub_of_eq second, pure_then, pure_then, props]

theorem LastWill.debug_encode {w : LastWill} (words : w.propertiesLen < 2 ^ 64) :
    Debug.LastWill.encode w = w.encode := by
  rw [Debug.LastWill.encode, debug_propertiesLen, fromChecked_word words, pure_then]
  rfl

theorem Connect.debug_encode {p : Connect} {limit : Nat} (words : p.encodedSize limit < 2 ^ 64)
    (size : Nat) : Debug.Connect.encode p size = p.encode size := by
  have props : p.propertiesLen < 2 ^ 64 := by
    unfold encodedSize at words
    omega
  have will : forSome p.lastWill Debug.LastWill.encode = forSome p.lastWill LastWill.encode := by
    cases hw : p.lastWill with
    | none => rfl
    | some w => exact LastWill.debug_encode (Nat.lt_of_le_of_lt (will_le_size hw limit) words)
  rw [Debug.Connect.encode, debug_propertiesLen, fromChecked_word props, pure_then, will]
  rfl

end V5

theorem PublishProperties.debug_encode (p : PublishProperties) {size : Nat}
    (words : size < 2 ^ 32) : Debug.PublishProperties.encode p size = p.encode size := by
  rw [Debug.PublishProperties.encode, debug_varIntLenFromSize words]
  rfl

theorem Publish.debug_encode {p : Publish} {limit : Nat}
    (small : p.encodedSize limit ≤ MAX_PACKET_SIZE) :
    Debug.Publish.encode p (p.encodedSize limit) = p.encode (p.encodedSize limit) := by
  have words : p.encodedSize limit < 2 ^ 32 := by
    unfold MAX_PACKET_SIZE at small
    omega
  have total : p.encodedSize limit = Codec.encodedSize p.topic +
      (if p.qos = .atMostOnce then 0 else 2) + p.payload.length +
      (p.properties.getD PublishProperties.default).encodedSize limit := by
    unfold encodedSize
    dsimp only
    omega
  unfold Debug.Publish.encode Publish.encode
  refine countedChecked_eq ((Measured.emits p.topic).bind p.emits_packetId) ?_
  rw [word_add, fromChecked_word (by omega), pure_then, Nat.mod_eq_of_lt (by omega),
    fromChecked_sub_of_eq words total, checkedSub_of_eq total, pure_then, pure_then,
    PublishProperties.debug_encode _ (by omega)]

namespace V5

theorem Subscribe.debug_encode {p : Subscribe} {limit : Nat} (words : p.encodedSize limit < 2 ^ 32)
    (size : Nat) : Debug.Subscribe.encode p size = p.encode size := by
  have bound : p.propLen < 2 ^ 32 := by
    unfold encodedSize at words
    dsimp only at words
    omega
  unfold propLen at bound
  rw [Debug.Subscribe.encode, Debug.Sized.encodedSize_eq, fromChecked_word (by omega), pure_then,
    debug_subIdSize, word_add, Nat.mod_eq_of_lt (by omega), fromChecked_word bound, pure_then,
    Subscribe.encode,
    Nat.mod_eq_of_lt (by omega)]

theorem Unsubscribe.debug_encode {p : Unsubscribe} {limit : Nat}
    (words : p.encodedSize limit < 2 ^ 64) (size : Nat) :
    Debug.Unsubscribe.encode p size = p.encode size := by
  have bound : Codec.encodedSize p.userProperties < 2 ^ 64 := by
    unfold encodedSize at words
    dsimp only at words
    omega
  rw [Debug.Unsubscribe.encode, Debug.Sized.encodedSize_eq, fromChecked_word bound, pure_then]
  rfl

namespace Packet

theorem encodeFrame_congr {firstByte : UInt8} {n : Nat} {w w' : Nat → ByteWriter EncodeError Unit}
    (h : n ≤ MAX_PACKET_SIZE → w n = w' n) :
    encodeFrame firstByte n w = encodeFrame firstByte n w' := by
  unfold encodeFrame
  rcases Nat.lt_or_ge MAX_PACKET_SIZE n with large | small
  · rw [writeVariableLength_of_large large]
    rfl
  · rw [h small]

/-- After a size pass without overflow, the encode pass computes with exact numbers. -/
theorem debug_encode {p : Packet} {limit n : Nat} (bound : limit < 2 ^ 32)
    (inRange : p.SumsInRange limit) (size : p.encodedSize limit = .ok n) (within : n ≤ limit) :
    Debug.Packet.encode n p = p.encode n := by
  cases p with
  | connect p => cases size; exact encodeFrame_congr fun _ => Connect.debug_encode inRange _
  | publish p => cases size; exact encodeFrame_congr Publish.debug_encode
  | subscribe p =>
      cases size
      exact encodeFrame_congr fun _ =>
        Subscribe.debug_encode (Nat.lt_of_le_of_lt within bound) _
  | unsubscribe p => cases size; exact encodeFrame_congr fun _ => Unsubscribe.debug_encode inRange _
  | connectAck p =>
      cases size
      exact encodeFrame_congr
        (debug_encodeWithDiag (Emits.putSlice _) p.emits_encodeFixed bound inRange.2)
  | disconnect p =>
      cases size
      exact encodeFrame_congr (debug_encodeWithDiag (Emits.putU8 _)
        ((emits_encodeProperty _ _).bind (emits_encodeProperty _ _)) bound inRange.2)
  | auth p =>
      cases size
      exact encodeFrame_congr (debug_encodeWithDiag (Emits.putU8 _)
        ((emits_encodeProperty _ _).bind (emits_encodeProperty _ _)) bound inRange.2)
  | publishAck p => exact encodeFrame_congr (PublishAckOf.debug_encode bound inRange size)
  | publishReceived p => exact encodeFrame_congr (PublishAckOf.debug_encode bound inRange size)
  | publishRelease p => exact encodeFrame_congr (PublishAckOf.debug_encode bound inRange size)
  | publishComplete p => exact encodeFrame_congr (PublishAckOf.debug_encode bound inRange size)
  | subscribeAck p =>
      refine encodeFrame_congr fun small => ?_
      obtain rfl := SubscribeAck.encodedSize_eq_ok size small
      unfold MAX_PACKET_SIZE at small
      exact StatusAckOf.debug_encode (by omega) (inRange (by omega)) small
  | unsubscribeAck p =>
      have sum := UnsubscribeAck.encodedSize_eq p limit
      cases size
      refine encodeFrame_congr fun small => ?_
      rw [sum] at small ⊢
      exact StatusAckOf.debug_encode (by omega) inRange.2 small
  | pingRequest => rfl
  | pingResponse => rfl

end Packet

/-! ## The encoder -/

/-- Under the two conditions the encoder computes with exact numbers throughout. -/
theorem debug_encode_eq {c : Codec} {p : Packet} (covers : (c.outgoing p).LimitCovers c.maxSize)
    (inRange : (c.outgoing p).SumsInRange c.maxSize) : Debug.encode c p = c.encode p := by
  rcases (c.outgoing p).debug_encodedSize c.maxSize_lt with ⟨n, value, exact⟩
  have size := exact covers
  rw [Debug.encode, value.1 ⟨covers, inRange⟩]
  change (if n > c.maxSize then _ else _) = _
  by_cases above : n > c.maxSize
  · rw [if_pos above, Codec.encode_of_above size above]
  · have within : n ≤ c.maxSize := Nat.le_of_not_lt above
    have words : n < 2 ^ 32 := Nat.lt_of_le_of_lt within c.maxSize_lt
    rw [if_neg above, Codec.encode_of_within size within, ofNat_eq, word_add,
      fromChecked_word (by omega), pure_then, Nat.mod_eq_of_lt words,
      Packet.debug_encode c.maxSize_lt inRange size within]

/-- The encoder on exact numbers never goes below zero after its size pass. -/
theorem encode_ne_overflow {c : Codec} {p : Packet}
    (covers : (c.outgoing p).LimitCovers c.maxSize) (dst : Bytes) :
    (c.encode p dst).1 ≠ .fault .overflow := by
  rcases (c.outgoing p).debug_encodedSize c.maxSize_lt with ⟨n, -, exact⟩
  have size := exact covers
  intro overflow
  by_cases above : n > c.maxSize
  · rw [Codec.encode_of_above size above] at overflow
    cases overflow
  · rw [Codec.encode_of_within size (Nat.le_of_not_lt above)] at overflow
    have emitted := Packet.emits size dst
    rcases run : (c.outgoing p).encode n dst with ⟨outcome, dst'⟩
    rw [run] at emitted overflow
    dsimp only at overflow
    rw [overflow] at emitted
    exact emitted rfl

/-- No sum and no difference of the encoder leaves the range of its words if and only if the limit
covers what is subtracted from it without a check and the sums of lengths are in range. -/
theorem encode_overflow_free_iff (c : Codec) (p : Packet) (dst : Bytes) :
    (Debug.encode c p dst).1 ≠ .fault .overflow ↔
      (c.outgoing p).LimitCovers c.maxSize ∧ (c.outgoing p).SumsInRange c.maxSize := by
  constructor
  · intro free
    apply Classical.byContradiction
    intro violated
    rcases (c.outgoing p).debug_encodedSize c.maxSize_lt with ⟨n, value, -⟩
    apply free
    rw [Debug.encode, value.2 violated]
    rfl
  · rintro ⟨covers, inRange⟩
    rw [debug_encode_eq covers inRange]
    exact encode_ne_overflow covers dst

/-- A PUBACK without properties. -/
def accepted : PublishAck where
  packetId := ⟨11, by decide⟩
  reasonCode := .success
  properties := []
  reasonString := none

/-- To a client with a Maximum Packet Size of six, sending it takes three from a limit of one. -/
theorem accepted_overflows :
    (Debug.encode ((Codec.new 0 0).setMaxOutboundSize 6) (.publishAck accepted) []).1 =
      .fault .overflow := by
  decide

end V5

end OxiMqtt.Codec
