import Udap.RouterContact

/-!
The messages of the DHT, `FindRouterMessage` and `GotRouterMessage`, and their decoders up to
`DecodeMesssageList`.
-/

namespace Udap.Dht

open ByteMem

/-- `FindRouterMessage`. -/
structure FindRouterMessage where
  From : PubKey
  K : PubKey
  iterative : Bool := false
  txid : UInt64 := 0
  version : UInt64 := 0
  deriving DecidableEq

/-- `GotRouterMessage`. -/
structure GotRouterMessage where
  From : PubKey
  R : List RouterContact := []
  txid : UInt64 := 0
  version : UInt64 := 0
  deriving DecidableEq

/-- `dht::IMessage`. -/
inductive Message where
  | findRouter (m : FindRouterMessage)
  | gotRouter (m : GotRouterMessage)
  deriving DecidableEq

/-- `FindRouterMessage::DecodeKey`. -/
def FindRouterMessage.decodeKey (key : Bytes) : Reader FindRouterMessage :=
  if isKey key 'I' then .integer fun m i => some { m with iterative := i ≠ 0 }
  else if isKey key 'K' then .blob 32 fun m k => { m with K := k }
  else if isKey key 'T' then
    .part (·.txid) (fun m t => { m with txid := t }) fun t b => b.readInteger t
  else if isKey key 'V' then
    .part (·.version) (fun m v => { m with version := v }) fun v b => b.readInteger v
  else .bad

/-- `GotRouterMessage::DecodeKey`. -/
def GotRouterMessage.decodeKey (lib : HostLib) (u : Uninit) (key : Bytes) :
    Reader GotRouterMessage :=
  if isKey key 'R' then
    .part (·.R) (fun m l => { m with R := l }) (bencodeReadList {} (RouterContact.bdecode lib u))
  else if isKey key 'T' then
    .part (·.txid) (fun m t => { m with txid := t }) fun t b => b.readInteger t
  else if isKey key 'V' then
    .part (·.version) (fun m v => { m with version := v }) fun v b =>
      match b.readInteger v with
      | (v, b) => (v, if v = protoVersion then b else none)
  else .bad

/-- `MessageDecoder`. -/
structure MessageDecoder where
  firstKey : Bool := true
  msg : Option Message := none

/-- The message that the type in the first entry asks for. -/
def newMessage (u : Uninit) (From : PubKey) (cur : ℕ) (type : Bytes) : Option Message :=
  if type = [ascii 'R'] then some (.findRouter { From := From, K := u.key cur })
  else if type = [ascii 'S'] then some (.gotRouter { From := From })
  else none

/-- `MessageDecoder::on_key`. -/
def MessageDecoder.onKey (lib : HostLib) (u : Uninit) (From : PubKey) :
    Option Bytes → Reader MessageDecoder
  | none => fun dec b => (dec, if dec.firstKey then none else some b)
  | some key => fun dec b =>
      if dec.firstKey then
        if isKey key 'A' then
          Reader.string (fun _ type => (newMessage u From b.cur type).map fun msg =>
            { firstKey := false, msg := some msg }) dec b
        else (dec, none)
      else
        match dec.msg with
        | none => (dec, none)
        | some (.findRouter m) =>
            Reader.part (fun _ => m) (fun dec m => { dec with msg := some (.findRouter m) })
              (FindRouterMessage.decodeKey key) dec b
        | some (.gotRouter m) =>
            Reader.part (fun _ => m) (fun dec m => { dec with msg := some (.gotRouter m) })
              (GotRouterMessage.decodeKey lib u key) dec b

/-- `DecodeMesssageList`, whose items go through `DecodeMesssage`. -/
def decodeMesssageList (lib : HostLib) (u : Uninit) (From : PubKey) : Reader (List Message) :=
  readList fun more l b =>
    if more then
      match readDict (MessageDecoder.onKey lib u From) {} b with
      | (_, none) => (l, none)
      | (dec, some b) =>
          match dec.msg with
          | none => (l, none)
          | some msg => (l ++ [msg], some b)
    else (l, some b)

end Udap.Dht
