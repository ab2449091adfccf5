import XosChain.Governance.Packing
import XosChain.Lib.Decoder

namespace XosChain.Net

open Lib Raw Decoder

def maxSizeOfByteArrays : ℕ := 20 * 1024 * 1024

abbrev Layout := Decoder UInt8 Unit

section

def groups : ℕ → ℕ → ℕ → Decoder UInt8 ℕ
  | 0, _, v => .value v
  | n + 1, shift, v => (fixed 1).bind fun b =>
    let b := b.headD 0
    let v := v ||| ((b &&& 0x7f).toNat <<< shift) % 2 ^ 32
    if b &&& 0x80 ≠ 0 ∧ shift + 7 < 32 then groups n (shift + 7) v else .value v

def unsignedInt : Decoder UInt8 ℕ := groups 5 0 0

def size (n : ℕ) : Layout := (fixed n).ignore

def byteArray : Layout := unsignedInt.bind fun n => if n ≤ maxSizeOfByteArrays then size n else .fail

def vector (element : Layout) : Layout :=
  unsignedInt.bind fun n => if n ≤ maxNumArrayElements then element.times n else .fail

def optional (element : Layout) : Layout := (fixed 1).bind fun b =>
  if b.headD 0 = 0 then .value () else if b.headD 0 = 1 then element else .fail

def staticVariant {α : Type} (types : List (Decoder UInt8 α)) : Decoder UInt8 α :=
  unsignedInt.bind fun which => (types[which]?).getD .fail

end

section

def sha256 : Layout := size 32
def publicKey : Layout := staticVariant [size 33, size 33]
def signature : Layout := staticVariant [size 65, size 65]
def selectIds : Layout := .all [size 4, size 4, vector sha256]
def extensions : Layout := vector (.all [size 2, byteArray])

def handshakeMessage : Layout := .all [size 2, sha256, sha256, publicKey, size 8, sha256, signature, byteArray,
  size 4, sha256, size 4, sha256, byteArray, byteArray, size 2]

def chainSizeMessage : Layout := .all [size 4, sha256, size 4, sha256]

def goAwayMessage : Layout := .all [size 4, sha256]

def timeMessage : Layout := .all [size 8, size 8, size 8, size 8]

def noticeMessage : Layout := .all [selectIds, selectIds]

def requestMessage : Layout := .all [selectIds, selectIds]

def syncRequestMessage : Layout := .all [size 4, size 4]

def packedTransaction : Layout := .all [vector signature, size 1, byteArray, byteArray]

def producerSchedule : Layout := .all [size 4, vector (.all [size 8, publicKey])]

def transactionReceipt : Layout :=
  .all [size 1, size 4, unsignedInt.ignore, staticVariant [sha256, packedTransaction]]

def signedBlock : Layout := .all [size 4, size 8, size 2, sha256, sha256, sha256, size 4, optional producerSchedule,
  extensions, signature, vector transactionReceipt, extensions]

def messages : List Layout := [handshakeMessage, chainSizeMessage, goAwayMessage, timeMessage, noticeMessage,
  requestMessage, syncRequestMessage, signedBlock, packedTransaction]

def signedBlockTag : ℕ := 7

end

end XosChain.Net
