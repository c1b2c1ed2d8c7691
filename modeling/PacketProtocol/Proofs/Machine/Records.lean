import PacketProtocol.Proofs.Keys
import PacketProtocol.Proofs.Machine.Schema
/-!
# Handshakes on the machine

A handshake is read record by record. Nothing traps: the bounds of a single slot are taken by index,
and there is one because the count of slots is not zero; records end because each takes an octet.
-/

namespace PacketProtocol.Machine

/-! ## Enum packages and kinds -/

def member : Reading Value := do
  match ← octet with
  | 0 => return .undefined
  | 1 => return .null
  | 2 => return .bool false
  | 3 => return .bool true
  | 4 => return .int (Int64.ofInt (← signedVarint))
  | 5 => return .number (Binary64.ofBytes (← array 8))
  | 6 => return .string (← text)
  | _ => throw .notProtocol

def package : Reading EnumPackage := do
  let tag ← shortText
  let members ← times member (← octet).toNat
  match EnumPackage.make tag members with
  | .ok package => return package
  | .error _ => throw .notProtocol

def kind : Reading PayloadKind := do
  match ← octet with
  | 0 => return .none
  | 1 => return .raw
  | 2 => return .strings
  | 3 => return .intsFixed
  | 4 => return .intsDynamic
  | 5 => return .decimals
  | 6 => return .booleans
  | 7 => return .enum (← package)
  | 8 => return .floats
  | _ => throw .notProtocol

theorem member_follows : Follows 1 member EnumPackage.memberParser := by
  refine octet_follows.bind fun code => ?_
  split
  · exact .pure _
  · exact .pure _
  · exact .pure _
  · exact .pure _
  · exact signedVarint_follows.bind fun n => .pure _
  · exact (array_follows 8).bind fun bytes => .pure _
  · exact text_follows.bind fun text => .pure _
  · -- the code is none of those above for the parser either
    simpa only [*] using Follows.fail _

theorem members_follows (count : Nat) : Follows 0 (times member count) (EnumPackage.membersParser count) :=
  times_follows member_follows EnumPackage.membersParser rfl (fun _ => rfl) count

theorem package_follows : Follows 1 package EnumPackage.parser := by
  refine shortText_follows.bind fun tag => (octet_follows.bind fun count => ?_).mono (Nat.zero_le 1)
  refine (members_follows count.toNat).bind fun members => ?_
  cases EnumPackage.make tag members with
  | ok package => exact .pure _
  | error e => exact .fail _

theorem kind_follows : Follows 1 kind PayloadKind.parser := by
  refine octet_follows.bind fun code => ?_
  split
  · exact .pure _
  · exact .pure _
  · exact .pure _
  · exact .pure _
  · exact .pure _
  · exact .pure _
  · exact .pure _
  · exact package_follows.bind (fun package => .pure _) (Nat.zero_le _)
  · exact .pure _
  · -- the code is none of those above for the parser either
    simpa only [*] using Follows.fail _

/-! ## Packets -/

def slotCount (isObject : Bool) : Reading Nat := if isObject then UInt32.toNat <$> word else pure 1

def bound : Reading (UInt32 × UInt32) := do
  let min ← word
  let max ← word
  return (min, max)

/-- A single slot has the first of the bounds. -/
def schemaOf (isObject : Bool) (kinds : List PayloadKind) (bounds : List (UInt32 × UInt32)) :
    Option (Result Schema) :=
  match isObject, kinds with
  | false, kind :: _ => do
    let (min, max) ← index bounds 0
    return Schema.single kind min max
  | false, [] => return .error .notProtocol
  | true, kinds => return Schema.object kinds (bounds.map Prod.fst) (bounds.map Prod.snd)

/-- The value of a step that must not fail in a record. -/
def required {α : Type} : Result α → Reading α
  | .ok a => pure a
  | .error _ => throw .notProtocol

def record : Reading Packet := do
  let flags := (← octet).toNat
  if flags < 128 ∨ 128 + 16 ≤ flags then
    throw .notProtocol
  let isObject := flags / 4 % 2 == 1
  let count ← slotCount isObject
  if count = 0 ∨ Schema.maxSlots < count then
    throw .notProtocol
  let bounds ← times bound count
  let kinds ← times kind count
  let interval ← word
  let maxBatch ← word
  let rateLimit ← word
  let tag ← shortText
  let schema ← required (← liftM (schemaOf isObject kinds bounds : Checked DecodeFault (Result Schema)))
  let schema ← required (schema.withAutoFlatten (flags / 2 % 2 == 1))
  let schema := ((schema.withSpread (flags % 2 == 1)).withBatching interval maxBatch).withRateLimit
    rateLimit
  let packet ← required (Packet.make tag schema)
  return packet.setEnabled (flags / 8 % 2 == 1)

theorem slotCount_follows (isObject : Bool) : Follows 0 (slotCount isObject) (Packet.countParser isObject) := by
  cases isObject with
  | false => exact .pure 1
  | true => exact word_follows.map UInt32.toNat

theorem bounds_follows (count : Nat) : Follows 0 (times bound count) (Packet.boundsParser count) := by
  have hbound : Follows 1 bound (do return (← Parser.word, ← Parser.word)) :=
    word_follows.bind fun min => word_follows.bind fun max => .pure _
  refine times_follows hbound Packet.boundsParser rfl (fun count => ?_) count
  simp only [Packet.boundsParser, bind_assoc, pure_bind]

theorem kinds_follows (count : Nat) : Follows 0 (times kind count) (Packet.kindsParser count) :=
  times_follows kind_follows Packet.kindsParser rfl (fun _ => rfl) count

theorem required_follows {α : Type} (result : Result α) : Follows 0 (required result) (Packet.required result) := by
  cases result with
  | ok a => exact .pure a
  | error e => exact .fail _

theorem schemaOf_eq {isObject : Bool} {kinds : List PayloadKind} {bounds : List (UInt32 × UInt32)}
    (h : bounds ≠ []) : schemaOf isObject kinds bounds = some (Packet.schemaOf isObject kinds bounds) := by
  cases bounds with
  | nil => exact (h rfl).elim
  | cons bound bounds =>
    cases isObject with
    | true => rfl
    | false => cases kinds <;> rfl

theorem bounds_ne_nil {count : Nat} (hcount : count ≠ 0) {bytes rest : Bytes} {bounds : List (UInt32 × UInt32)}
    (h : Packet.boundsParser count bytes = .ok (bounds, rest)) : bounds ≠ [] := by
  obtain ⟨count, rfl⟩ := Nat.exists_eq_succ_of_ne_zero hcount
  obtain ⟨_, -, h⟩ := Outcome.bind_eq_ok.1 h
  obtain ⟨_, -, h⟩ := Outcome.bind_eq_ok.1 h
  obtain ⟨_, -, h⟩ := Outcome.bind_eq_ok.1 h
  cases h
  exact List.cons_ne_nil _ _

/-- A check that ends the reading unless it comes out well. -/
theorem Follows.check {α : Type} {n : Nat} {c : Prop} [Decidable c] {fault : DecodeFault} {f : Unit → Reading α}
    {g : Unit → Parser α} (h : ¬c → Follows n (f ()) (g ())) :
    Follows n (if c then throw fault >>= f else f ()) (if c then Parser.fail fault >>= g else g ()) := by
  split
  · exact fun r _ => .inl ⟨fault, rfl, rfl⟩
  · exact h ‹_›

theorem record_follows : Follows 1 record Packet.parser := by
  refine octet_follows.bind fun flags => Follows.check fun _ => ?_
  refine (slotCount_follows _).bind fun count => Follows.check fun hcount => ?_
  have hne := @bounds_ne_nil count fun hzero => hcount (.inl hzero)
  refine (bounds_follows count).bindOf (P := (· ≠ [])) hne fun bounds hbounds => ?_
  refine (kinds_follows count).bind fun kinds => (word_follows.bind fun interval => ?_)
  refine word_follows.bind fun maxBatch => word_follows.bind fun rateLimit => shortText_follows.bind fun tag => ?_
  rw [schemaOf_eq hbounds]
  refine (required_follows _).bind fun shape => (required_follows _).bind fun schema => ?_
  exact (required_follows _).bind fun packet => .pure _

/-! ## Registries -/

/-- The key of a packet that is added, and the registry with it. -/
def insert (registry : Registry) (packet : Packet) : Option (Result (UInt8 × Registry)) :=
  if registry.contains packet.tag then return .error (.duplicateTag packet.tag)
  else if Registry.maxPackets ≤ registry.size then return .error (.registryFull Registry.maxPackets)
  else do
    let key ← add 64 registry.size 1
    return .ok (UInt8.ofNat key, ⟨registry.packets ++ [packet]⟩)

def insertRead (registry : Registry) (packet : Packet) : Checked DecodeFault Registry := do
  match ← insert registry packet with
  | .ok (_, registry) => return registry
  | .error _ => throw .notProtocol

/-- Reads records up to and with the delimiter, in less than `fuel` rounds. -/
def packetsFrom : Nat → Registry → Reading Registry
  | 0, _ => fun _ => liftM (none : Option (Registry × Reader))
  | fuel + 1, registry => fun r =>
    match r.peek with
    | none => throw .handshakeTruncated
    | some first =>
      if first = delimiter then do
        let (_, r) ← octet r
        return (registry, r)
      else do
        let (packet, r) ← record r
        packetsFrom fuel (← insertRead registry packet) r

def packets : Reading Registry := fun r => packetsFrom (r.data.length + 1) .empty r

theorem insert_eq (registry : Registry) (packet : Packet) :
    ∃ outcome, insert registry packet = some outcome ∧ Prod.snd <$> outcome = registry.insert packet := by
  unfold insert Registry.insert
  split
  · exact ⟨_, rfl, rfl⟩
  · split
    · exact ⟨_, rfl, rfl⟩
    · rename_i hroom
      have hadd : add 64 registry.size 1 = some (registry.size + 1) := by
        simp only [Registry.maxPackets] at hroom
        exact add_of_lt (by omega)
      rw [hadd]
      exact ⟨_, rfl, rfl⟩

theorem insertRead_eq (registry : Registry) (packet : Packet) :
    insertRead registry packet = safe (registry.insertRead packet) := by
  obtain ⟨outcome, hinsert, houtcome⟩ := insert_eq registry packet
  rw [insertRead, Registry.insertRead, hinsert, ← houtcome, liftM_some, pure_bind]
  cases outcome <;> rfl

theorem size_of_insertRead {registry registry' : Registry} {packet : Packet} (hnum : registry.Numbered)
    (h : registry.insertRead packet = .ok registry') : registry'.size = registry.size + 1 := by
  unfold Registry.insertRead at h
  split at h
  · rename_i hinsert
    cases h
    rw [((Registry.insert_eq_ok hnum).1 hinsert).1]
    exact List.length_append
  · cases h

/-- Each record takes an octet, and a registry is full before the rounds of the parser are over. -/
theorem packetsFrom_follows {fuel room : Nat} {registry : Registry} {r : Reader} (hr : r.Valid)
    (hfuel : r.ahead.length < fuel) (hroom : registry.size + room = Registry.maxPackets + 1)
    (hnum : registry.Numbered) :
    FollowsAt r 0 (packetsFrom fuel registry) (Registry.sectionParser.go room registry) := by
  induction fuel generalizing room registry r with
  | zero => cases hfuel
  | succ fuel ih =>
    have hsize := hnum.size
    obtain ⟨room, rfl⟩ := Nat.exists_eq_succ_of_ne_zero (show room ≠ 0 by omega)
    have hpeek := r.peek_eq
    cases hahead : r.ahead with
    | nil =>
      rw [hahead] at hpeek
      refine .inl ⟨.handshakeTruncated, by rw [hahead]; rfl, ?_⟩
      simp only [packetsFrom, hpeek]
      rfl
    | cons first rest =>
      rw [hahead] at hpeek
      by_cases hdelimiter : first = delimiter
      · refine .inr ⟨registry, 1, Nat.zero_le _, by simp [hahead], ?_, ?_⟩
        · simp only [Registry.sectionParser.go, hahead, if_pos hdelimiter]
          rfl
        · simp only [packetsFrom, hpeek, if_pos hdelimiter, octet_cons hr hahead, List.head?_cons]
          rfl
      · have hread : packetsFrom (fuel + 1) registry r =
            (record >>= fun packet r =>
              insertRead registry packet >>= fun registry => packetsFrom fuel registry r) r := by
          simp only [packetsFrom, hpeek, if_neg hdelimiter, List.head?_cons]
          rfl
        have hparse : Registry.sectionParser.go (room + 1) registry r.ahead =
            (Packet.parser >>= fun packet bytes => registry.insertRead packet >>= fun registry =>
              Registry.sectionParser.go room registry bytes) r.ahead := by
          simp only [Registry.sectionParser.go, hahead, if_neg hdelimiter]
          rfl
        refine FollowsAt.congr hread hparse ((record_follows r hr).bind ?_ (Nat.zero_le 1))
        intro packet count hleast hcount _
        rw [insertRead_eq]
        cases hinsert : registry.insertRead packet with
        | error fault => exact .inl ⟨fault, rfl, rfl⟩
        | ok registry' =>
          have hgrown := size_of_insertRead hnum hinsert
          refine ih (hr.skip hcount) ?_ (by omega) (Registry.insertRead_numbered hnum hinsert)
          rw [Reader.ahead_skip, List.length_drop]
          omega

theorem packets_follows : Follows 0 packets Registry.sectionParser := by
  intro r hr
  have hfuel : r.ahead.length < r.data.length + 1 := by
    rw [Reader.length_ahead]
    omega
  exact packetsFrom_follows hr hfuel rfl Registry.empty_numbered

/-! ## Handshakes -/

def handshakeBody (version : UInt8) : Reading Handshake := do
  let client ← packets
  let server ← packets
  let rateWindow ← orFault .handshakeTruncated octet
  finish
  return { version, client, server, rateWindow }

def parseHandshake (bytes : Bytes) : Option (Result Handshake) := do
  match ← (array 4 (.start bytes)).run with
  | .error _ => return .error .notProtocol
  | .ok (mark, r) =>
    if mark ≠ Handshake.mark then return .error .notProtocol
    else
      match ← (octet r).run with
      | .error _ => return .error .notProtocol
      | .ok (version, r) =>
        if version ≠ Handshake.currentVersion then return .error (.versionMismatch Handshake.currentVersion version)
        else
          match ← (handshakeBody version r).run with
          | .error _ => return .error .notProtocol
          | .ok (handshake, _) => return .ok handshake

/-- The rate window is the last octet. -/
theorem rateWindow_follows (version : UInt8) (client server : Registry) :
    Follows 0
      (do
        let rateWindow ← orFault .handshakeTruncated octet
        finish
        return { version, client, server, rateWindow : Handshake })
      (do
        let bytes ← get
        match bytes with
        | [] => Parser.fail .handshakeTruncated
        | rateWindow :: rest => do
          set rest
          Parser.finish
          return { version, client, server, rateWindow : Handshake }) := by
  intro r hr
  cases hahead : r.ahead with
  | nil =>
    refine .inl ⟨.handshakeTruncated, by rw [hahead]; rfl, ?_⟩
    show (orFault .handshakeTruncated octet r >>= fun _ => _ : Checked DecodeFault _) = _
    rw [orFault, octet_nil hahead]
    rfl
  | cons rateWindow rest =>
    have hread : Follows 0
        (do
          let rateWindow ← octet
          finish
          return { version, client, server, rateWindow : Handshake })
        (do
          let rateWindow ← Parser.octet
          Parser.finish
          return { version, client, server, rateWindow : Handshake }) :=
      octet_follows.bind fun rateWindow => finish_follows.bind fun _ => .pure _
    refine FollowsAt.congr ?_ ?_ (hread r hr)
    · show (orFault .handshakeTruncated octet r >>= fun _ => _ : Checked DecodeFault _) = (octet r >>= fun _ => _)
      rw [orFault, octet_cons hr hahead]
      rfl
    · rw [hahead]
      rfl

theorem handshakeBody_follows (version : UInt8) : Follows 0 (handshakeBody version) (Handshake.bodyParser version) :=
  packets_follows.bind fun client => packets_follows.bind fun server => rateWindow_follows version client server

theorem parseHandshake_eq {bytes : Bytes} (h : bytes.length < 2 ^ 64) :
    parseHandshake bytes = some (Handshake.parse bytes) := by
  have hstart := Reader.start_valid h
  unfold parseHandshake Handshake.parse
  obtain hlt | hle := Nat.lt_or_ge bytes.length 4
  · have hmark : bytes.take 4 ≠ Handshake.mark := by
      intro hmark
      have hlength := congrArg List.length hmark
      rw [List.length_take, Handshake.mark] at hlength
      simp only [List.length_cons, List.length_nil] at hlength
      omega
    rw [array_of_lt hstart hlt, if_pos hmark]
    rfl
  · have hskip : ((Reader.start bytes).skip 4).Valid := hstart.skip hle
    have hahead : ((Reader.start bytes).skip 4).ahead = bytes.drop 4 := Reader.ahead_skip _ _
    rw [array_of_le hstart hle]
    show (if bytes.take 4 ≠ Handshake.mark then _ else _) = some (if bytes.take 4 ≠ Handshake.mark then _ else _)
    split
    · rfl
    · cases hrest : bytes.drop 4 with
      | nil =>
        rw [octet_nil (hahead.trans hrest)]
        rfl
      | cons version body =>
        have hbody := Reader.ahead_skip_one (hahead.trans hrest)
        have hfollows := handshakeBody_follows version _ (hskip.skip_one (hahead.trans hrest))
        rw [octet_cons hskip (hahead.trans hrest)]
        show (if version ≠ Handshake.currentVersion then _ else _) =
          some (if version ≠ Handshake.currentVersion then _ else _)
        split
        · rfl
        · rw [FollowsAt, hbody] at hfollows
          obtain ⟨fault, hparse, hread⟩ | ⟨handshake, count, -, -, hparse, hread⟩ := hfollows
          · rw [hparse, hread]
            rfl
          · rw [hparse, hread]
            rfl

end PacketProtocol.Machine
