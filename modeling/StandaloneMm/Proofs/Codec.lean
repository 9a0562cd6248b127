import StandaloneMm.ErrorSource.Info
import StandaloneMm.Message
import StandaloneMm.Partition

/-! Decoding is the inverse of encoding, for words and for the records made of them: a record is
read back from any bytes that start with it, and written back as the bytes it was read from. -/
namespace StandaloneMm

theorem littleEndian_eq {n value : Nat} {bytes : Bytes} (length : bytes.length = n)
    (holds : value = ofLittleEndian bytes) : littleEndian n value = bytes := by
  subst length holds
  exact littleEndian_ofLittleEndian bytes

theorem littleEndian_mod (n value : Nat) : littleEndian n (value % Nat.pow 256 n) = littleEndian n value :=
  littleEndian_eq (length_littleEndian n value) (ofLittleEndian_littleEndian n value).symm

theorem bigEndian_ofBigEndian {n : Nat} {bytes : Bytes} (length : bytes.length = n) :
    bigEndian n (ofBigEndian bytes) = bytes := by
  rw [bigEndian, ofBigEndian, littleEndian_eq (by simpa using length) rfl, List.reverse_reverse]

theorem ofLittleEndian_of_fits {n value : Nat} (fits : value < Nat.pow 256 n) :
    ofLittleEndian (littleEndian n value) = value := by
  rw [ofLittleEndian_littleEndian, Nat.mod_eq_of_lt fits]

theorem ofBigEndian_of_fits {n value : Nat} (fits : value < Nat.pow 256 n) :
    ofBigEndian (bigEndian n value) = value := by
  rw [ofBigEndian, bigEndian, List.reverse_reverse, ofLittleEndian_of_fits fits]

theorem ofLittleEndian_append (front back : Bytes) :
    ofLittleEndian (front ++ back) = ofLittleEndian front + Nat.pow 256 front.length * ofLittleEndian back := by
  induction front with
  | nil => simp [ofLittleEndian]
  | cons b rest ih =>
    have step : Nat.pow 256 (rest.length + 1) = 256 * Nat.pow 256 rest.length := Nat.mul_comm _ _
    rw [List.cons_append, ofLittleEndian, ih, ofLittleEndian, List.length_cons, step, Nat.mul_add, Nat.mul_assoc,
      Nat.add_assoc]

theorem ofBigEndian_append (front back : Bytes) :
    ofBigEndian (front ++ back) = ofBigEndian front * Nat.pow 256 back.length + ofBigEndian back := by
  rw [ofBigEndian, List.reverse_append, ofLittleEndian_append, List.length_reverse, Nat.mul_comm, Nat.add_comm]
  rfl

theorem ofBigEndian_lt (bytes : Bytes) : ofBigEndian bytes < Nat.pow 256 bytes.length := by
  have bound := ofLittleEndian_lt bytes.reverse
  rwa [List.length_reverse] at bound

theorem toNat_word16 {bytes : Bytes} (length : bytes.length = 2) :
    (UInt16.ofNat (ofLittleEndian bytes)).toNat = ofLittleEndian bytes := by
  have bound := ofLittleEndian_lt bytes
  rw [length] at bound
  exact UInt16.toNat_ofNat_of_lt' bound

theorem toNat_word32 {bytes : Bytes} (length : bytes.length = 4) :
    (UInt32.ofNat (ofLittleEndian bytes)).toNat = ofLittleEndian bytes := by
  have bound := ofLittleEndian_lt bytes
  rw [length] at bound
  exact UInt32.toNat_ofNat_of_lt' bound

theorem toNat_word64 {bytes : Bytes} (length : bytes.length = 8) :
    (UInt64.ofNat (ofLittleEndian bytes)).toNat = ofLittleEndian bytes := by
  have bound := ofLittleEndian_lt bytes
  rw [length] at bound
  exact UInt64.toNat_ofNat_of_lt' bound

theorem toNat_bigWord64 {bytes : Bytes} (length : bytes.length = 8) :
    (UInt64.ofNat (ofBigEndian bytes)).toNat = ofBigEndian bytes := by
  rw [ofBigEndian]
  exact toNat_word64 (by simpa using length)

theorem word16_littleEndian (w : UInt16) :
    UInt16.ofNat (ofLittleEndian (littleEndian 2 w.toNat)) = w := by
  rw [ofLittleEndian_of_fits w.toNat_lt, UInt16.ofNat_toNat]

theorem word32_littleEndian (w : UInt32) :
    UInt32.ofNat (ofLittleEndian (littleEndian 4 w.toNat)) = w := by
  rw [ofLittleEndian_of_fits w.toNat_lt, UInt32.ofNat_toNat]

theorem word64_littleEndian (w : UInt64) :
    UInt64.ofNat (ofLittleEndian (littleEndian 8 w.toNat)) = w := by
  rw [ofLittleEndian_of_fits w.toNat_lt, UInt64.ofNat_toNat]

theorem word64_bigEndian (w : UInt64) :
    UInt64.ofNat (ofBigEndian (bigEndian 8 w.toNat)) = w := by
  rw [ofBigEndian_of_fits w.toNat_lt, UInt64.ofNat_toNat]

theorem take_drop_field {before field rest : Bytes} {i n : Nat} (offset : before.length = i)
    (length : field.length = n) : ((before ++ (field ++ rest)).drop i).take n = field := by
  rw [← offset, List.drop_left, ← length, List.take_left]

namespace Guid

theorem decode_encode_append (g : Guid) (rest : Bytes) : decode (g.encode ++ rest) = g := by
  have first : (g.encode ++ rest).take 4 = littleEndian 4 g.data1.toNat := by
    simp [encode, List.append_assoc]
  have second : ((g.encode ++ rest).drop 4).take 2 = littleEndian 2 g.data2.toNat := by
    simp only [encode, List.append_assoc]
    exact take_drop_field (by simp) (by simp)
  have third : ((g.encode ++ rest).drop 6).take 2 = littleEndian 2 g.data3.toNat := by
    simp only [encode, List.append_assoc]
    rw [← List.append_assoc (littleEndian 4 _)]
    exact take_drop_field (by simp) (by simp)
  have fourth : ((g.encode ++ rest).drop 8).take 8 = bigEndian 8 g.data4.toNat := by
    simp only [encode, List.append_assoc]
    rw [← List.append_assoc (littleEndian 4 _), ← List.append_assoc (littleEndian 4 _ ++ _)]
    exact take_drop_field (by simp) (by simp)
  rw [decode, first, second, third, fourth, word32_littleEndian, word16_littleEndian,
    word16_littleEndian, word64_bigEndian]

theorem encode_decode {bytes : Bytes} (length : bytes.length = 16) :
    (decode bytes).encode = bytes := by
  have first : (bytes.take 4).length = 4 := by simp [length]
  have second : ((bytes.drop 4).take 2).length = 2 := by simp [length]
  have third : ((bytes.drop 6).take 2).length = 2 := by simp [length]
  have fourth : ((bytes.drop 8).take 8).length = 8 := by simp [length]
  simp only [encode, decode, toNat_word32 first, toNat_word16 second, toNat_word16 third,
    toNat_bigWord64 fourth, littleEndian_eq first, littleEndian_eq second, littleEndian_eq third,
    bigEndian_ofBigEndian fourth]
  have tail : (bytes.drop 8).take 8 = bytes.drop 8 := List.take_of_length_le (by simp [length])
  rw [tail, List.append_assoc, List.append_assoc]
  rw [show bytes.drop 8 = (bytes.drop 6).drop 2 by rw [List.drop_drop], List.take_append_drop,
    show bytes.drop 6 = (bytes.drop 4).drop 2 by rw [List.drop_drop], List.take_append_drop,
    List.take_append_drop]

end Guid

namespace MessageHeader

theorem decode?_encode_append (h : MessageHeader) (rest : Bytes) :
    decode? (h.encode ++ rest) = some h := by
  have room : ¬ (h.encode ++ rest).length < size := by simp
  have recipient : Guid.decode ((h.encode ++ rest).take 16) = h.recipient := by
    have front : (h.encode ++ rest).take 16 = h.recipient.encode ++ [] := by
      simp [encode, List.append_assoc]
    rw [front, Guid.decode_encode_append]
  have length : ((h.encode ++ rest).drop 16).take 8 = littleEndian 8 h.length.toNat := by
    simp only [encode, List.append_assoc]
    exact take_drop_field (by simp) (by simp)
  rw [decode?, if_neg room, recipient, length, word64_littleEndian]

theorem encode_of_decode? {message : Bytes} {h : MessageHeader} (read : decode? message = some h) :
    h.encode = message.take size := by
  unfold decode? at read
  split at read
  · contradiction
  next long =>
    obtain rfl := Option.some.inj read
    simp only [size] at long
    have recipient : (message.take 16).length = 16 := by simp; omega
    have length : ((message.drop 16).take 8).length = 8 := by simp; omega
    simp only [encode, Guid.encode_decode recipient, toNat_word64 length, littleEndian_eq length,
      ← List.take_add, size]

theorem decode?_eq_none_iff {message : Bytes} : decode? message = none ↔ message.length < size := by
  rw [decode?, ite_eq_left_iff]
  simp

theorem size_le_of_decode? {message : Bytes} {h : MessageHeader} (read : decode? message = some h) :
    size ≤ message.length :=
  Nat.not_lt.mp fun short => by simp [decode?_eq_none_iff.mpr short] at read

theorem read_of_decode? {message : Bytes} {h : MessageHeader} (found : decode? message = some h) :
    read message = .ok h := by
  simp only [read, found]

theorem read_of_headless {message : Bytes} (headless : decode? message = none) :
    read message = .error .invalidParameter := by
  simp only [read, headless]

theorem decode?_take {message : Bytes} {n : Nat} (covers : size ≤ n) :
    decode? (message.take n) = decode? message := by
  simp only [size] at covers
  have short : (message.take n).length < size ↔ message.length < size := by simp [size]; omega
  simp only [decode?, short, List.take_take, List.drop_take,
    show min 16 n = 16 by omega, show min 8 (n - 16) = 8 by omega]

theorem length_of_decode? {message : Bytes} {h : MessageHeader} (read : decode? message = some h) :
    h.length.toNat = ofLittleEndian ((message.drop 16).take 8) := by
  have long := size_le_of_decode? read
  unfold decode? at read
  split at read
  · contradiction
  · obtain rfl := Option.some.inj read
    simp only [size] at long
    exact toNat_word64 (by simp; omega)

theorem recipient_of_decode? {message : Bytes} {h : MessageHeader} (read : decode? message = some h) :
    h.recipient = Guid.decode (message.take 16) := by
  unfold decode? at read
  split at read
  · contradiction
  · obtain rfl := Option.some.inj read
    rfl

theorem decode?_isSome {message : Bytes} (long : size ≤ message.length) :
    ∃ h, decode? message = some h := by
  rw [decode?, if_neg (by omega)]
  exact ⟨_, rfl⟩

end MessageHeader

namespace PartitionDescriptor

@[simp] theorem length_encode (d : PartitionDescriptor) : d.encode.length = size := by simp [encode, size]

theorem decode?_encode_append (d : PartitionDescriptor) (rest : Bytes) : decode? (d.encode ++ rest) = some d := by
  have room : ¬ (d.encode ++ rest).length < size := by simp
  have id : (d.encode ++ rest).take 2 = littleEndian 2 d.id.toNat := by simp [encode, List.append_assoc]
  have contexts : ((d.encode ++ rest).drop 2).take 2 = littleEndian 2 d.contexts.toNat := by
    simp only [encode, List.append_assoc]
    exact take_drop_field (by simp) (by simp)
  have properties : ((d.encode ++ rest).drop 4).take 4 = littleEndian 4 d.properties.toNat := by
    rw [encode, List.append_assoc]
    exact take_drop_field (by simp) (by simp)
  rw [decode?, if_neg room, id, contexts, properties, word16_littleEndian, word16_littleEndian,
    word32_littleEndian]

theorem decode?_encode (d : PartitionDescriptor) : decode? d.encode = some d := by
  simpa using decode?_encode_append d []

theorem decode?_of_size_le {page : Bytes} (long : size ≤ page.length) :
    ∃ d, decode? page = some d ∧ d.encode = page.take size := by
  have room : ¬ page.length < size := Nat.not_lt.mpr long
  simp only [size] at long
  have id : (page.take 2).length = 2 := by simp; omega
  have contexts : ((page.drop 2).take 2).length = 2 := by simp; omega
  have properties : ((page.drop 4).take 4).length = 4 := by simp; omega
  rw [decode?, if_neg room]
  refine ⟨_, rfl, ?_⟩
  simp only [encode, toNat_word16 id, toNat_word16 contexts, toNat_word32 properties, littleEndian_eq id,
    littleEndian_eq contexts, littleEndian_eq properties, ← List.take_add, size]

theorem decode?_eq_none_iff {page : Bytes} : decode? page = none ↔ page.length < size := by
  rw [decode?, ite_eq_left_iff]
  simp

theorem encode_of_decode? {page : Bytes} {d : PartitionDescriptor} (read : decode? page = some d) :
    d.encode = page.take size := by
  have long : size ≤ page.length := Nat.not_lt.mp fun short => by simp [decode?_eq_none_iff.mpr short] at read
  obtain ⟨found, held, whole⟩ := decode?_of_size_le long
  rwa [Option.some.inj (read.symm.trans held)]

end PartitionDescriptor

namespace ErrorSource.Info

theorem decode?_encode_append (i : Info) (rest : Bytes) : decode? (i.encode ++ rest) = some i := by
  have room : ¬ (i.encode ++ rest).length < size := by simp
  have count : (i.encode ++ rest).take 8 = littleEndian 8 i.count.toNat := by
    simp [encode, List.append_assoc]
  have length : ((i.encode ++ rest).drop 8).take 8 = littleEndian 8 i.length.toNat := by
    simp only [encode, List.append_assoc]
    exact take_drop_field (by simp) (by simp)
  rw [decode?, if_neg room, count, length, word64_littleEndian, word64_littleEndian]

theorem decode?_eq_none_iff {body : Bytes} : decode? body = none ↔ body.length < size := by
  rw [decode?, ite_eq_left_iff]
  simp

theorem encode_of_decode? {body : Bytes} {i : Info} (read : decode? body = some i) : i.encode = body.take size := by
  unfold decode? at read
  split at read
  · contradiction
  next long =>
    obtain rfl := Option.some.inj read
    simp only [size] at long
    have count : (body.take 8).length = 8 := by simp; omega
    have length : ((body.drop 8).take 8).length = 8 := by simp; omega
    simp only [encode, toNat_word64 count, toNat_word64 length, littleEndian_eq count, littleEndian_eq length,
      ← List.take_add, size]

end ErrorSource.Info

end StandaloneMm
