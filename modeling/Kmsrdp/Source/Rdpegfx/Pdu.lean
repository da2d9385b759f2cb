import Mathlib.Algebra.Ring.Int.Defs
import Kmsrdp.Library.Chunks
import Kmsrdp.Source.Pdu.Cursor

/-!
# GFX PDUs

Model of `rdpcore-rdpegfx/src/pdu.rs`: the PDUs of AVC420 streaming, the choice among the capability
sets of a client, and the decoder of its messages.
-/
namespace Kmsrdp.Source.Rdpegfx
open Library.ByteString Library.Chunks Source.Pdu

def cmdWireToSurface1 : Nat := 0x0001
def cmdCreateSurface : Nat := 0x0009
def cmdDeleteSurface : Nat := 0x000a
def cmdStartFrame : Nat := 0x000b
def cmdEndFrame : Nat := 0x000c
def cmdFrameAcknowledge : Nat := 0x000d
def cmdResetGraphics : Nat := 0x000e
def cmdMapSurfaceToOutput : Nat := 0x000f
def cmdCacheImportOffer : Nat := 0x0010
def cmdCapsAdvertise : Nat := 0x0012
def cmdCapsConfirm : Nat := 0x0013
def codecAvc420 : Nat := 0x000b
def pixelFormatXrgb : UInt8 := 0x20
def capVersion8 : Nat := 0x00080004
def capVersion81 : Nat := 0x00080005
def capVersion10 : Nat := 0x000a0002
def capVersion101 : Nat := 0x000a0003
def capVersion102 : Nat := 0x000a0004
def capVersion103 : Nat := 0x000a0005
def capVersion104 : Nat := 0x000a0006
def capVersion105 : Nat := 0x000a0007
def capVersion106 : Nat := 0x000a0600
def capVersion106Err : Nat := 0x000a0601
def capVersion107 : Nat := 0x000a0701
def capsFlagAvc420Enabled : Nat := 0x10
def capsFlagAvcDisabled : Nat := 0x20
def segmentedSingle : UInt8 := 0xe0
def segmentedMultipart : UInt8 := 0xe1
def packetComprTypeRdp8 : UInt8 := 0x04
def zgfxMaxSegmentPayload : Nat := 65535
def resetGraphicsTotalSize : Nat := 340
def gfxHeaderSize : Nat := 8

structure Rect16 where
  (left top right bottom : Nat)

def Rect16.encode (rect : Rect16) : Bytes :=
  u16Le rect.left ++ u16Le rect.top ++ u16Le rect.right ++ u16Le rect.bottom

def i32Le (v : Int) : Bytes := u32Le (v % 2 ^ 32).toNat

structure MonitorDef where
  (left top right bottom : Int)
  primary : Bool

def MonitorDef.encode (monitor : MonitorDef) : Bytes :=
  i32Le monitor.left ++ i32Le monitor.top ++ i32Le monitor.right ++ i32Le monitor.bottom ++
    u32Le (if monitor.primary then 1 else 0)

structure RawCapabilitySet where
  version : Nat
  data : Bytes
  deriving DecidableEq

namespace RawCapabilitySet

def flags (set : RawCapabilitySet) : Nat :=
  match set.data with
  | b0 :: b1 :: b2 :: b3 :: _ =>
    b0.toNat + b1.toNat * 256 + b2.toNat * 65536 + b3.toNat * 16777216
  | _ => 0

def encodeBody (set : RawCapabilitySet) : Bytes :=
  u32Le set.version ++ u32Le set.data.length ++ set.data

def decode : Decoder RawCapabilitySet := do
  let version ← readU32Le
  let length ← readU32Le
  let data ← readSlice length
  return { version, data }

def supportsAvc420 (set : RawCapabilitySet) : Bool :=
  if set.version = capVersion81 then set.flags &&& capsFlagAvc420Enabled ≠ 0
  else if set.version ∈ [capVersion10, capVersion101, capVersion102, capVersion103, capVersion104,
      capVersion105, capVersion106, capVersion106Err, capVersion107] then
    set.flags &&& capsFlagAvcDisabled = 0
  else false

end RawCapabilitySet

def capRank (version : Nat) : Nat :=
  if version = capVersion107 then 11
  else if version = capVersion106 ∨ version = capVersion106Err then 10
  else if version = capVersion105 then 9
  else if version = capVersion104 then 8
  else if version = capVersion103 then 7
  else if version = capVersion102 then 6
  else if version = capVersion101 then 5
  else if version = capVersion10 then 4
  else if version = capVersion81 then 3
  else if version = capVersion8 then 1
  else 0

def maxByRank : List RawCapabilitySet → Option RawCapabilitySet
  | [] => none
  | set :: rest =>
    match maxByRank rest with
    | none => some set
    | some best => if capRank set.version ≤ capRank best.version then some best else some set

def selectAvc420Capability (sets : List RawCapabilitySet) : Option RawCapabilitySet :=
  maxByRank (sets.filter RawCapabilitySet.supportsAvc420)

def gfxPdu (cmdId : Nat) (body : Bytes) : Bytes :=
  u16Le cmdId ++ u16Le 0 ++ u32Le (gfxHeaderSize + body.length) ++ body

def encodeSegmented (gfxPdus : Bytes) : Bytes :=
  if gfxPdus.length ≤ zgfxMaxSegmentPayload then [segmentedSingle, packetComprTypeRdp8] ++ gfxPdus
  else
    let pieces := chunks zgfxMaxSegmentPayload gfxPdus
    [segmentedMultipart] ++ u16Le pieces.length ++ u32Le gfxPdus.length ++
      pieces.flatMap fun piece => u32Le (1 + piece.length) ++ [packetComprTypeRdp8] ++ piece

def encodeCapsConfirm (cap : RawCapabilitySet) : Bytes := gfxPdu cmdCapsConfirm cap.encodeBody

def encodeResetGraphics (width height : Nat) (monitors : List MonitorDef) : Bytes :=
  let bodyTarget := resetGraphicsTotalSize - gfxHeaderSize
  let body := u32Le width ++ u32Le height ++ u32Le monitors.length ++ monitors.flatMap MonitorDef.encode
  gfxPdu cmdResetGraphics ((body ++ List.replicate (bodyTarget - body.length) 0).take bodyTarget)

def encodeCreateSurface (surfaceId width height : Nat) : Bytes :=
  gfxPdu cmdCreateSurface (u16Le surfaceId ++ u16Le width ++ u16Le height ++ [pixelFormatXrgb])

def encodeDeleteSurface (surfaceId : Nat) : Bytes := gfxPdu cmdDeleteSurface (u16Le surfaceId)

def encodeMapSurfaceToOutput (surfaceId outputOriginX outputOriginY : Nat) : Bytes :=
  gfxPdu cmdMapSurfaceToOutput
    (u16Le surfaceId ++ u16Le 0 ++ u32Le outputOriginX ++ u32Le outputOriginY)

def encodeStartFrame (timestampMs frameId : Nat) : Bytes :=
  gfxPdu cmdStartFrame (u32Le timestampMs ++ u32Le frameId)

def encodeEndFrame (frameId : Nat) : Bytes := gfxPdu cmdEndFrame (u32Le frameId)

def encodeAvc420BitmapStream (visibleWidth visibleHeight : Nat) (qp quality : UInt8)
    (h264Bitstream : Bytes) : Bytes :=
  u32Le 1 ++ Rect16.encode ⟨0, 0, visibleWidth, visibleHeight⟩ ++ [qp &&& 0x3f ||| 0x80, quality] ++
    h264Bitstream

def encodeWireToSurface1Avc420 (surfaceId destWidth destHeight : Nat) (bitmapData : Bytes) :
    Bytes :=
  gfxPdu cmdWireToSurface1
    (u16Le surfaceId ++ u16Le codecAvc420 ++ [pixelFormatXrgb] ++
      Rect16.encode ⟨0, 0, destWidth, destHeight⟩ ++ u32Le bitmapData.length ++ bitmapData)

inductive ClientMessage where
  | capsAdvertise (sets : List RawCapabilitySet)
  | frameAcknowledge (queueDepth frameId totalFramesDecoded : Nat)
  | cacheImportOffer
  | other (cmdId : Nat)
  deriving DecidableEq

def decodeSets : Nat → Decoder (List RawCapabilitySet)
  | 0 => return []
  | count + 1 => do
    let set ← RawCapabilitySet.decode
    let rest ← decodeSets count
    return set :: rest

def decodeBody (cmdId : Nat) : Decoder ClientMessage :=
  if cmdId = cmdCapsAdvertise then do
    let count ← readU16Le
    let sets ← decodeSets count
    return .capsAdvertise sets
  else if cmdId = cmdFrameAcknowledge then do
    let queueDepth ← readU32Le
    let frameId ← readU32Le
    let totalFramesDecoded ← readU32Le
    return .frameAcknowledge queueDepth frameId totalFramesDecoded
  else if cmdId = cmdCacheImportOffer then return .cacheImportOffer
  else return .other cmdId

def decodeClientMessage (input : Bytes) : Except DecodeError ClientMessage :=
  decodeFrom (do
    let cmdId ← readU16Le
    let _flags ← readU16Le
    let pduLength ← readU32Le
    if pduLength < gfxHeaderSize then fail "rdpegfx.pduLength" "smaller than header"
    ensure (pduLength - gfxHeaderSize)
    decodeBody cmdId) input

end Kmsrdp.Source.Rdpegfx
