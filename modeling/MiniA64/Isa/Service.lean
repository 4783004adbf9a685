/-!
# Host services

A program reaches the outside world through supervisor calls whose number selects a service of
the console, the framebuffer, the file store, the memory helpers or the system. Each service
also has a mnemonic of its own.
-/

namespace MiniA64

inductive Service
  | printString
  | printChar
  | printNumber
  | inputChar
  | inputLine
  | printHex
  | clearScreen
  | setColors
  | plot
  | line
  | box
  | resetColors
  | canvas
  | fileCreate
  | fileWrite
  | fileRead
  | fileDelete
  | fileCopy
  | fileMove
  | fileExists
  | stringLength
  | copyMemory
  | fillMemory
  | absolute
  | sleep
  | random
  | uptime
  | halt
  deriving DecidableEq, Repr, Inhabited

namespace Service

def all : List Service :=
  [printString, printChar, printNumber, inputChar, inputLine, printHex, clearScreen, setColors,
    plot, line, box, resetColors, canvas, fileCreate, fileWrite, fileRead, fileDelete, fileCopy,
    fileMove, fileExists, stringLength, copyMemory, fillMemory, absolute, sleep, random, uptime,
    halt]

/-- The supervisor call number. -/
def id : Service → BitVec 16
  | printString => 0x100
  | printChar => 0x101
  | printNumber => 0x102
  | inputChar => 0x103
  | inputLine => 0x104
  | printHex => 0x105
  | clearScreen => 0x110
  | setColors => 0x111
  | plot => 0x112
  | line => 0x113
  | box => 0x114
  | resetColors => 0x115
  | canvas => 0x116
  | fileCreate => 0x120
  | fileWrite => 0x121
  | fileRead => 0x122
  | fileDelete => 0x123
  | fileCopy => 0x124
  | fileMove => 0x125
  | fileExists => 0x126
  | stringLength => 0x130
  | copyMemory => 0x131
  | fillMemory => 0x132
  | absolute => 0x133
  | sleep => 0x1f0
  | random => 0x1f1
  | uptime => 0x1f2
  | halt => 0x1ff

def name : Service → String
  | printString => "prt"
  | printChar => "prtc"
  | printNumber => "prtn"
  | inputChar => "inp"
  | inputLine => "inps"
  | printHex => "prtx"
  | clearScreen => "cls"
  | setColors => "setc"
  | plot => "plot"
  | line => "line"
  | box => "box"
  | resetColors => "reset"
  | canvas => "canvas"
  | fileCreate => "fcreat"
  | fileWrite => "fwrite"
  | fileRead => "fread"
  | fileDelete => "fdel"
  | fileCopy => "fcopy"
  | fileMove => "fmove"
  | fileExists => "fexist"
  | stringLength => "strlen"
  | copyMemory => "memcpy"
  | fillMemory => "memset"
  | absolute => "abs"
  | sleep => "sleep"
  | random => "rnd"
  | uptime => "tick"
  | halt => "halt"

def ofId? (id : BitVec 16) : Option Service := all.find? fun service ↦ service.id = id

theorem mem_all (service : Service) : service ∈ all := by cases service <;> decide

theorem ofId?_id (service : Service) : ofId? service.id = some service := by
  cases service <;> decide

end Service

end MiniA64
