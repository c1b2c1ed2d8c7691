import PacketProtocol.Parser
import PacketProtocol.Proofs.Varint
/-!
# What a parser reads

`p.Reads bytes a`: the parser takes exactly `bytes` from the front of its input and gives `a`,
whatever comes behind. Written forms are concatenations, and reading them goes the same way: what a
chain of parsers reads is the concatenation of what its parts read.
-/

namespace PacketProtocol

namespace Parser

variable {α β : Type}

/-- The parser reads `bytes` as `a` and leaves what follows. -/
def Reads (p : Parser α) (bytes : Bytes) (a : α) : Prop := ∀ rest, p (bytes ++ rest) = .ok (a, rest)

namespace Reads

theorem pure (a : α) : Reads (pure a) [] a := fun _ => rfl

theorem bind {p : Parser α} {f : α → Parser β} {front back : Bytes} {a : α} {b : β}
    (hp : p.Reads front a) (hf : (f a).Reads back b) : (p >>= f).Reads (front ++ back) b := by
  intro rest
  have h : (p >>= f) (front ++ back ++ rest) = p (front ++ (back ++ rest)) >>= fun r => f r.1 r.2 := by
    rw [List.append_assoc]; rfl
  rw [h, hp]
  exact hf rest

theorem map {p : Parser α} {bytes : Bytes} {a : α} (f : α → β) (hp : p.Reads bytes a) :
    (f <$> p).Reads bytes (f a) := by
  intro rest
  have h : (f <$> p) (bytes ++ rest) = p (bytes ++ rest) >>= fun r => .ok (f r.1, r.2) := rfl
  rw [h, hp]
  rfl

/-- A last step that reads nothing more. -/
theorem andThen {p : Parser α} {f : α → Parser β} {bytes : Bytes} {a : α} {b : β}
    (hp : p.Reads bytes a) (hf : (f a).Reads [] b) : (p >>= f).Reads bytes b := by
  simpa using hp.bind hf

/-- A first step that reads nothing. -/
theorem after {p : Parser α} {f : α → Parser β} {bytes : Bytes} {a : α} {b : β}
    (hp : p.Reads [] a) (hf : (f a).Reads bytes b) : (p >>= f).Reads bytes b :=
  hp.bind hf

/-- A parser of so many entries reads what its entries read, one behind the other. -/
theorem entries {entry : Parser α} (repeated : Nat → Parser (List α)) (hzero : repeated 0 = Pure.pure [])
    (hsucc : ∀ count, repeated (count + 1) = entry >>= fun a => repeated count >>= fun as => Pure.pure (a :: as))
    {chunks : List Bytes} {as : List α} (h : List.Forall₂ (fun a chunk => entry.Reads chunk a) as chunks) :
    (repeated as.length).Reads chunks.flatten as := by
  induction h with
  | nil => exact hzero ▸ .pure []
  | @cons a chunk as chunks hentry _ ih =>
    rw [List.length_cons, hsucc, List.flatten_cons]
    exact hentry.bind (ih.andThen (.pure _))

end Reads

theorem octet_reads (o : UInt8) : octet.Reads [o] o := fun _ => rfl

theorem take_reads (bytes : Bytes) : (take bytes.length).Reads bytes bytes := by
  intro rest
  simp [take]

theorem varint_reads {n : Nat} (h : n < Varint.bound) : varint.Reads (Varint.groups n) n :=
  Varint.decode_groups h

theorem signedVarint_reads {n : Int} {bytes : Bytes} (h : ZigZag.encode n = .ok bytes) :
    signedVarint.Reads bytes n := by
  obtain ⟨hn, rfl⟩ := ZigZag.encode_eq_ok.1 h
  refine (varint_reads (ZigZag.fold_lt_bound hn)).andThen ?_
  rw [ZigZag.unfold_fold]
  exact .pure n

theorem word_reads (n : UInt32) : word.Reads (Varint.groups n.toNat) n := by
  refine (varint_reads (Varint.word_lt_bound n)).andThen ?_
  rw [if_pos n.toNat_lt, UInt32.ofNat_toNat]
  exact .pure n

theorem utf8_reads (text : String) : (utf8 text.utf8ByteSize).Reads (Utf8.encode text) text := by
  refine (take_reads (Utf8.encode text)).andThen ?_
  rw [Utf8.decode_encode]
  exact .pure text

theorem text_reads {text : String} (h : text.utf8ByteSize < Varint.bound) :
    Parser.text.Reads (Varint.groups text.utf8ByteSize ++ Utf8.encode text) text :=
  (varint_reads h).bind (utf8_reads text)

theorem shortText_reads {text : String} (h : text.utf8ByteSize ≤ 255) :
    shortText.Reads (UInt8.ofNat text.utf8ByteSize :: Utf8.encode text) text := by
  have hn : (UInt8.ofNat text.utf8ByteSize).toNat = text.utf8ByteSize := by simp; omega
  refine (octet_reads _).bind ?_
  rw [hn]
  exact utf8_reads text

end Parser

end PacketProtocol
