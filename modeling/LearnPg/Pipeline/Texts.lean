import LearnPg.Collector.EventText
import LearnPg.Pipeline.Sources

/-! The texts that really go over the sockets, and the data the sources write into them. -/
namespace LearnPg.Pipeline

open Collector Collector.EventText

def pingText : List UInt8 := "\x7b\"type\":\"ping\"\x7d".toUTF8.toList

/-- `onmessage` drops what is not JSON and, by its type, a ping. The numbers of an event stay those
of its text, where a page has `double` of each: `eventOf_text_iff` says when that is the same. -/
def eventWire : Wire (WsEvent EventText.Data) where
  encode := text
  isPing e := e.eventType = "ping"
  shows m := (readText m).filter (·.eventType ≠ "ping")
  ping := pingText
  shows_encode e := by
    rw [readText_text]
    by_cases h : e.eventType = "ping" <;> simp [h]
  shows_ping := by decide +kernel
  shows_nil := by decide +kernel

def sourceData : Sources.Data EventText.Data where
  toValue := toValue
  ebpfStatus := ebpfStatus
  walFileStatus := walFileStatus

end LearnPg.Pipeline
