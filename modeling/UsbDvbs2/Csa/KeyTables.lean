/-! # The tables of the key schedule

`kperm` of `dvbcsa_key.c`, a table for each of the eight bytes of a word.
-/

namespace Dvbcsa

def kpermFirst : List Nat := [
  0x0, 0x80000, 0x8000000, 0x8080000, 0x80000000000000, 0x80000000080000, 0x80000008000000,
  0x80000008080000, 0x400000000000, 0x400000080000, 0x400008000000, 0x400008080000,
  0x80400000000000, 0x80400000080000, 0x80400008000000, 0x80400008080000, 0x2, 0x80002, 0x8000002,
  0x8080002, 0x80000000000002, 0x80000000080002, 0x80000008000002, 0x80000008080002,
  0x400000000002, 0x400000080002, 0x400008000002, 0x400008080002, 0x80400000000002,
  0x80400000080002, 0x80400008000002, 0x80400008080002, 0x8000, 0x88000, 0x8008000, 0x8088000,
  0x80000000008000, 0x80000000088000, 0x80000008008000, 0x80000008088000, 0x400000008000,
  0x400000088000, 0x400008008000, 0x400008088000, 0x80400000008000, 0x80400000088000,
  0x80400008008000, 0x80400008088000, 0x8002, 0x88002, 0x8008002, 0x8088002, 0x80000000008002,
  0x80000000088002, 0x80000008008002, 0x80000008088002, 0x400000008002, 0x400000088002,
  0x400008008002, 0x400008088002, 0x80400000008002, 0x80400000088002, 0x80400008008002,
  0x80400008088002, 0x1000000000, 0x1000080000, 0x1008000000, 0x1008080000, 0x80001000000000,
  0x80001000080000, 0x80001008000000, 0x80001008080000, 0x401000000000, 0x401000080000,
  0x401008000000, 0x401008080000, 0x80401000000000, 0x80401000080000, 0x80401008000000,
  0x80401008080000, 0x1000000002, 0x1000080002, 0x1008000002, 0x1008080002, 0x80001000000002,
  0x80001000080002, 0x80001008000002, 0x80001008080002, 0x401000000002, 0x401000080002,
  0x401008000002, 0x401008080002, 0x80401000000002, 0x80401000080002, 0x80401008000002,
  0x80401008080002, 0x1000008000, 0x1000088000, 0x1008008000, 0x1008088000, 0x80001000008000,
  0x80001000088000, 0x80001008008000, 0x80001008088000, 0x401000008000, 0x401000088000,
  0x401008008000, 0x401008088000, 0x80401000008000, 0x80401000088000, 0x80401008008000,
  0x80401008088000, 0x1000008002, 0x1000088002, 0x1008008002, 0x1008088002, 0x80001000008002,
  0x80001000088002, 0x80001008008002, 0x80001008088002, 0x401000008002, 0x401000088002,
  0x401008008002, 0x401008088002, 0x80401000008002, 0x80401000088002, 0x80401008008002,
  0x80401008088002, 0x400000, 0x480000, 0x8400000, 0x8480000, 0x80000000400000, 0x80000000480000,
  0x80000008400000, 0x80000008480000, 0x400000400000, 0x400000480000, 0x400008400000,
  0x400008480000, 0x80400000400000, 0x80400000480000, 0x80400008400000, 0x80400008480000, 0x400002,
  0x480002, 0x8400002, 0x8480002, 0x80000000400002, 0x80000000480002, 0x80000008400002,
  0x80000008480002, 0x400000400002, 0x400000480002, 0x400008400002, 0x400008480002,
  0x80400000400002, 0x80400000480002, 0x80400008400002, 0x80400008480002, 0x408000, 0x488000,
  0x8408000, 0x8488000, 0x80000000408000, 0x80000000488000, 0x80000008408000, 0x80000008488000,
  0x400000408000, 0x400000488000, 0x400008408000, 0x400008488000, 0x80400000408000,
  0x80400000488000, 0x80400008408000, 0x80400008488000, 0x408002, 0x488002, 0x8408002, 0x8488002,
  0x80000000408002, 0x80000000488002, 0x80000008408002, 0x80000008488002, 0x400000408002,
  0x400000488002, 0x400008408002, 0x400008488002, 0x80400000408002, 0x80400000488002,
  0x80400008408002, 0x80400008488002, 0x1000400000, 0x1000480000, 0x1008400000, 0x1008480000,
  0x80001000400000, 0x80001000480000, 0x80001008400000, 0x80001008480000, 0x401000400000,
  0x401000480000, 0x401008400000, 0x401008480000, 0x80401000400000, 0x80401000480000,
  0x80401008400000, 0x80401008480000, 0x1000400002, 0x1000480002, 0x1008400002, 0x1008480002,
  0x80001000400002, 0x80001000480002, 0x80001008400002, 0x80001008480002, 0x401000400002,
  0x401000480002, 0x401008400002, 0x401008480002, 0x80401000400002, 0x80401000480002,
  0x80401008400002, 0x80401008480002, 0x1000408000, 0x1000488000, 0x1008408000, 0x1008488000,
  0x80001000408000, 0x80001000488000, 0x80001008408000, 0x80001008488000, 0x401000408000,
  0x401000488000, 0x401008408000, 0x401008488000, 0x80401000408000, 0x80401000488000,
  0x80401008408000, 0x80401008488000, 0x1000408002, 0x1000488002, 0x1008408002, 0x1008488002,
  0x80001000408002, 0x80001000488002, 0x80001008408002, 0x80001008488002, 0x401000408002,
  0x401000488002, 0x401008408002, 0x401008488002, 0x80401000408002, 0x80401000488002,
  0x80401008408002, 0x80401008488002]

def kpermSecond : List Nat := [
  0x0, 0x100000000000000, 0x2000000000000000, 0x2100000000000000, 0x8000000000, 0x100008000000000,
  0x2000008000000000, 0x2100008000000000, 0x200000, 0x100000000200000, 0x2000000000200000,
  0x2100000000200000, 0x8000200000, 0x100008000200000, 0x2000008000200000, 0x2100008000200000,
  0x40000000000000, 0x140000000000000, 0x2040000000000000, 0x2140000000000000, 0x40008000000000,
  0x140008000000000, 0x2040008000000000, 0x2140008000000000, 0x40000000200000, 0x140000000200000,
  0x2040000000200000, 0x2140000000200000, 0x40008000200000, 0x140008000200000, 0x2040008000200000,
  0x2140008000200000, 0x400000000000000, 0x500000000000000, 0x2400000000000000, 0x2500000000000000,
  0x400008000000000, 0x500008000000000, 0x2400008000000000, 0x2500008000000000, 0x400000000200000,
  0x500000000200000, 0x2400000000200000, 0x2500000000200000, 0x400008000200000, 0x500008000200000,
  0x2400008000200000, 0x2500008000200000, 0x440000000000000, 0x540000000000000, 0x2440000000000000,
  0x2540000000000000, 0x440008000000000, 0x540008000000000, 0x2440008000000000, 0x2540008000000000,
  0x440000000200000, 0x540000000200000, 0x2440000000200000, 0x2540000000200000, 0x440008000200000,
  0x540008000200000, 0x2440008000200000, 0x2540008000200000, 0x4000000000000, 0x104000000000000,
  0x2004000000000000, 0x2104000000000000, 0x4008000000000, 0x104008000000000, 0x2004008000000000,
  0x2104008000000000, 0x4000000200000, 0x104000000200000, 0x2004000000200000, 0x2104000000200000,
  0x4008000200000, 0x104008000200000, 0x2004008000200000, 0x2104008000200000, 0x44000000000000,
  0x144000000000000, 0x2044000000000000, 0x2144000000000000, 0x44008000000000, 0x144008000000000,
  0x2044008000000000, 0x2144008000000000, 0x44000000200000, 0x144000000200000, 0x2044000000200000,
  0x2144000000200000, 0x44008000200000, 0x144008000200000, 0x2044008000200000, 0x2144008000200000,
  0x404000000000000, 0x504000000000000, 0x2404000000000000, 0x2504000000000000, 0x404008000000000,
  0x504008000000000, 0x2404008000000000, 0x2504008000000000, 0x404000000200000, 0x504000000200000,
  0x2404000000200000, 0x2504000000200000, 0x404008000200000, 0x504008000200000, 0x2404008000200000,
  0x2504008000200000, 0x444000000000000, 0x544000000000000, 0x2444000000000000, 0x2544000000000000,
  0x444008000000000, 0x544008000000000, 0x2444008000000000, 0x2544008000000000, 0x444000000200000,
  0x544000000200000, 0x2444000000200000, 0x2544000000200000, 0x444008000200000, 0x544008000200000,
  0x2444008000200000, 0x2544008000200000, 0x10000000, 0x100000010000000, 0x2000000010000000,
  0x2100000010000000, 0x8010000000, 0x100008010000000, 0x2000008010000000, 0x2100008010000000,
  0x10200000, 0x100000010200000, 0x2000000010200000, 0x2100000010200000, 0x8010200000,
  0x100008010200000, 0x2000008010200000, 0x2100008010200000, 0x40000010000000, 0x140000010000000,
  0x2040000010000000, 0x2140000010000000, 0x40008010000000, 0x140008010000000, 0x2040008010000000,
  0x2140008010000000, 0x40000010200000, 0x140000010200000, 0x2040000010200000, 0x2140000010200000,
  0x40008010200000, 0x140008010200000, 0x2040008010200000, 0x2140008010200000, 0x400000010000000,
  0x500000010000000, 0x2400000010000000, 0x2500000010000000, 0x400008010000000, 0x500008010000000,
  0x2400008010000000, 0x2500008010000000, 0x400000010200000, 0x500000010200000, 0x2400000010200000,
  0x2500000010200000, 0x400008010200000, 0x500008010200000, 0x2400008010200000, 0x2500008010200000,
  0x440000010000000, 0x540000010000000, 0x2440000010000000, 0x2540000010000000, 0x440008010000000,
  0x540008010000000, 0x2440008010000000, 0x2540008010000000, 0x440000010200000, 0x540000010200000,
  0x2440000010200000, 0x2540000010200000, 0x440008010200000, 0x540008010200000, 0x2440008010200000,
  0x2540008010200000, 0x4000010000000, 0x104000010000000, 0x2004000010000000, 0x2104000010000000,
  0x4008010000000, 0x104008010000000, 0x2004008010000000, 0x2104008010000000, 0x4000010200000,
  0x104000010200000, 0x2004000010200000, 0x2104000010200000, 0x4008010200000, 0x104008010200000,
  0x2004008010200000, 0x2104008010200000, 0x44000010000000, 0x144000010000000, 0x2044000010000000,
  0x2144000010000000, 0x44008010000000, 0x144008010000000, 0x2044008010000000, 0x2144008010000000,
  0x44000010200000, 0x144000010200000, 0x2044000010200000, 0x2144000010200000, 0x44008010200000,
  0x144008010200000, 0x2044008010200000, 0x2144008010200000, 0x404000010000000, 0x504000010000000,
  0x2404000010000000, 0x2504000010000000, 0x404008010000000, 0x504008010000000, 0x2404008010000000,
  0x2504008010000000, 0x404000010200000, 0x504000010200000, 0x2404000010200000, 0x2504000010200000,
  0x404008010200000, 0x504008010200000, 0x2404008010200000, 0x2504008010200000, 0x444000010000000,
  0x544000010000000, 0x2444000010000000, 0x2544000010000000, 0x444008010000000, 0x544008010000000,
  0x2444008010000000, 0x2544008010000000, 0x444000010200000, 0x544000010200000, 0x2444000010200000,
  0x2544000010200000, 0x444008010200000, 0x544008010200000, 0x2444008010200000, 0x2544008010200000]

def kpermThird : List Nat := [
  0x0, 0x80, 0x20000000, 0x20000080, 0x8000000000000, 0x8000000000080, 0x8000020000000,
  0x8000020000080, 0x40, 0xc0, 0x20000040, 0x200000c0, 0x8000000000040, 0x80000000000c0,
  0x8000020000040, 0x80000200000c0, 0x200000000, 0x200000080, 0x220000000, 0x220000080,
  0x8000200000000, 0x8000200000080, 0x8000220000000, 0x8000220000080, 0x200000040, 0x2000000c0,
  0x220000040, 0x2200000c0, 0x8000200000040, 0x80002000000c0, 0x8000220000040, 0x80002200000c0,
  0x800000000, 0x800000080, 0x820000000, 0x820000080, 0x8000800000000, 0x8000800000080,
  0x8000820000000, 0x8000820000080, 0x800000040, 0x8000000c0, 0x820000040, 0x8200000c0,
  0x8000800000040, 0x80008000000c0, 0x8000820000040, 0x80008200000c0, 0xa00000000, 0xa00000080,
  0xa20000000, 0xa20000080, 0x8000a00000000, 0x8000a00000080, 0x8000a20000000, 0x8000a20000080,
  0xa00000040, 0xa000000c0, 0xa20000040, 0xa200000c0, 0x8000a00000040, 0x8000a000000c0,
  0x8000a20000040, 0x8000a200000c0, 0x100000, 0x100080, 0x20100000, 0x20100080, 0x8000000100000,
  0x8000000100080, 0x8000020100000, 0x8000020100080, 0x100040, 0x1000c0, 0x20100040, 0x201000c0,
  0x8000000100040, 0x80000001000c0, 0x8000020100040, 0x80000201000c0, 0x200100000, 0x200100080,
  0x220100000, 0x220100080, 0x8000200100000, 0x8000200100080, 0x8000220100000, 0x8000220100080,
  0x200100040, 0x2001000c0, 0x220100040, 0x2201000c0, 0x8000200100040, 0x80002001000c0,
  0x8000220100040, 0x80002201000c0, 0x800100000, 0x800100080, 0x820100000, 0x820100080,
  0x8000800100000, 0x8000800100080, 0x8000820100000, 0x8000820100080, 0x800100040, 0x8001000c0,
  0x820100040, 0x8201000c0, 0x8000800100040, 0x80008001000c0, 0x8000820100040, 0x80008201000c0,
  0xa00100000, 0xa00100080, 0xa20100000, 0xa20100080, 0x8000a00100000, 0x8000a00100080,
  0x8000a20100000, 0x8000a20100080, 0xa00100040, 0xa001000c0, 0xa20100040, 0xa201000c0,
  0x8000a00100040, 0x8000a001000c0, 0x8000a20100040, 0x8000a201000c0, 0x10000, 0x10080, 0x20010000,
  0x20010080, 0x8000000010000, 0x8000000010080, 0x8000020010000, 0x8000020010080, 0x10040, 0x100c0,
  0x20010040, 0x200100c0, 0x8000000010040, 0x80000000100c0, 0x8000020010040, 0x80000200100c0,
  0x200010000, 0x200010080, 0x220010000, 0x220010080, 0x8000200010000, 0x8000200010080,
  0x8000220010000, 0x8000220010080, 0x200010040, 0x2000100c0, 0x220010040, 0x2200100c0,
  0x8000200010040, 0x80002000100c0, 0x8000220010040, 0x80002200100c0, 0x800010000, 0x800010080,
  0x820010000, 0x820010080, 0x8000800010000, 0x8000800010080, 0x8000820010000, 0x8000820010080,
  0x800010040, 0x8000100c0, 0x820010040, 0x8200100c0, 0x8000800010040, 0x80008000100c0,
  0x8000820010040, 0x80008200100c0, 0xa00010000, 0xa00010080, 0xa20010000, 0xa20010080,
  0x8000a00010000, 0x8000a00010080, 0x8000a20010000, 0x8000a20010080, 0xa00010040, 0xa000100c0,
  0xa20010040, 0xa200100c0, 0x8000a00010040, 0x8000a000100c0, 0x8000a20010040, 0x8000a200100c0,
  0x110000, 0x110080, 0x20110000, 0x20110080, 0x8000000110000, 0x8000000110080, 0x8000020110000,
  0x8000020110080, 0x110040, 0x1100c0, 0x20110040, 0x201100c0, 0x8000000110040, 0x80000001100c0,
  0x8000020110040, 0x80000201100c0, 0x200110000, 0x200110080, 0x220110000, 0x220110080,
  0x8000200110000, 0x8000200110080, 0x8000220110000, 0x8000220110080, 0x200110040, 0x2001100c0,
  0x220110040, 0x2201100c0, 0x8000200110040, 0x80002001100c0, 0x8000220110040, 0x80002201100c0,
  0x800110000, 0x800110080, 0x820110000, 0x820110080, 0x8000800110000, 0x8000800110080,
  0x8000820110000, 0x8000820110080, 0x800110040, 0x8001100c0, 0x820110040, 0x8201100c0,
  0x8000800110040, 0x80008001100c0, 0x8000820110040, 0x80008201100c0, 0xa00110000, 0xa00110080,
  0xa20110000, 0xa20110080, 0x8000a00110000, 0x8000a00110080, 0x8000a20110000, 0x8000a20110080,
  0xa00110040, 0xa001100c0, 0xa20110040, 0xa201100c0, 0x8000a00110040, 0x8000a001100c0,
  0x8000a20110040, 0x8000a201100c0]

def kpermFourth : List Nat := [
  0x0, 0x800000000000, 0x40000000, 0x800040000000, 0x100000000, 0x800100000000, 0x140000000,
  0x800140000000, 0x8000000000000000, 0x8000800000000000, 0x8000000040000000, 0x8000800040000000,
  0x8000000100000000, 0x8000800100000000, 0x8000000140000000, 0x8000800140000000, 0x400,
  0x800000000400, 0x40000400, 0x800040000400, 0x100000400, 0x800100000400, 0x140000400,
  0x800140000400, 0x8000000000000400, 0x8000800000000400, 0x8000000040000400, 0x8000800040000400,
  0x8000000100000400, 0x8000800100000400, 0x8000000140000400, 0x8000800140000400, 0x800,
  0x800000000800, 0x40000800, 0x800040000800, 0x100000800, 0x800100000800, 0x140000800,
  0x800140000800, 0x8000000000000800, 0x8000800000000800, 0x8000000040000800, 0x8000800040000800,
  0x8000000100000800, 0x8000800100000800, 0x8000000140000800, 0x8000800140000800, 0xc00,
  0x800000000c00, 0x40000c00, 0x800040000c00, 0x100000c00, 0x800100000c00, 0x140000c00,
  0x800140000c00, 0x8000000000000c00, 0x8000800000000c00, 0x8000000040000c00, 0x8000800040000c00,
  0x8000000100000c00, 0x8000800100000c00, 0x8000000140000c00, 0x8000800140000c00, 0x10,
  0x800000000010, 0x40000010, 0x800040000010, 0x100000010, 0x800100000010, 0x140000010,
  0x800140000010, 0x8000000000000010, 0x8000800000000010, 0x8000000040000010, 0x8000800040000010,
  0x8000000100000010, 0x8000800100000010, 0x8000000140000010, 0x8000800140000010, 0x410,
  0x800000000410, 0x40000410, 0x800040000410, 0x100000410, 0x800100000410, 0x140000410,
  0x800140000410, 0x8000000000000410, 0x8000800000000410, 0x8000000040000410, 0x8000800040000410,
  0x8000000100000410, 0x8000800100000410, 0x8000000140000410, 0x8000800140000410, 0x810,
  0x800000000810, 0x40000810, 0x800040000810, 0x100000810, 0x800100000810, 0x140000810,
  0x800140000810, 0x8000000000000810, 0x8000800000000810, 0x8000000040000810, 0x8000800040000810,
  0x8000000100000810, 0x8000800100000810, 0x8000000140000810, 0x8000800140000810, 0xc10,
  0x800000000c10, 0x40000c10, 0x800040000c10, 0x100000c10, 0x800100000c10, 0x140000c10,
  0x800140000c10, 0x8000000000000c10, 0x8000800000000c10, 0x8000000040000c10, 0x8000800040000c10,
  0x8000000100000c10, 0x8000800100000c10, 0x8000000140000c10, 0x8000800140000c10, 0x4000000000,
  0x804000000000, 0x4040000000, 0x804040000000, 0x4100000000, 0x804100000000, 0x4140000000,
  0x804140000000, 0x8000004000000000, 0x8000804000000000, 0x8000004040000000, 0x8000804040000000,
  0x8000004100000000, 0x8000804100000000, 0x8000004140000000, 0x8000804140000000, 0x4000000400,
  0x804000000400, 0x4040000400, 0x804040000400, 0x4100000400, 0x804100000400, 0x4140000400,
  0x804140000400, 0x8000004000000400, 0x8000804000000400, 0x8000004040000400, 0x8000804040000400,
  0x8000004100000400, 0x8000804100000400, 0x8000004140000400, 0x8000804140000400, 0x4000000800,
  0x804000000800, 0x4040000800, 0x804040000800, 0x4100000800, 0x804100000800, 0x4140000800,
  0x804140000800, 0x8000004000000800, 0x8000804000000800, 0x8000004040000800, 0x8000804040000800,
  0x8000004100000800, 0x8000804100000800, 0x8000004140000800, 0x8000804140000800, 0x4000000c00,
  0x804000000c00, 0x4040000c00, 0x804040000c00, 0x4100000c00, 0x804100000c00, 0x4140000c00,
  0x804140000c00, 0x8000004000000c00, 0x8000804000000c00, 0x8000004040000c00, 0x8000804040000c00,
  0x8000004100000c00, 0x8000804100000c00, 0x8000004140000c00, 0x8000804140000c00, 0x4000000010,
  0x804000000010, 0x4040000010, 0x804040000010, 0x4100000010, 0x804100000010, 0x4140000010,
  0x804140000010, 0x8000004000000010, 0x8000804000000010, 0x8000004040000010, 0x8000804040000010,
  0x8000004100000010, 0x8000804100000010, 0x8000004140000010, 0x8000804140000010, 0x4000000410,
  0x804000000410, 0x4040000410, 0x804040000410, 0x4100000410, 0x804100000410, 0x4140000410,
  0x804140000410, 0x8000004000000410, 0x8000804000000410, 0x8000004040000410, 0x8000804040000410,
  0x8000004100000410, 0x8000804100000410, 0x8000004140000410, 0x8000804140000410, 0x4000000810,
  0x804000000810, 0x4040000810, 0x804040000810, 0x4100000810, 0x804100000810, 0x4140000810,
  0x804140000810, 0x8000004000000810, 0x8000804000000810, 0x8000004040000810, 0x8000804040000810,
  0x8000004100000810, 0x8000804100000810, 0x8000004140000810, 0x8000804140000810, 0x4000000c10,
  0x804000000c10, 0x4040000c10, 0x804040000c10, 0x4100000c10, 0x804100000c10, 0x4140000c10,
  0x804140000c10, 0x8000004000000c10, 0x8000804000000c10, 0x8000004040000c10, 0x8000804040000c10,
  0x8000004100000c10, 0x8000804100000c10, 0x8000004140000c10, 0x8000804140000c10]

def kpermFifth : List Nat := [
  0x0, 0x4000000000000000, 0x4000000, 0x4000000004000000, 0x10000000000, 0x4000010000000000,
  0x10004000000, 0x4000010004000000, 0x40000, 0x4000000000040000, 0x4040000, 0x4000000004040000,
  0x10000040000, 0x4000010000040000, 0x10004040000, 0x4000010004040000, 0x1000, 0x4000000000001000,
  0x4001000, 0x4000000004001000, 0x10000001000, 0x4000010000001000, 0x10004001000,
  0x4000010004001000, 0x41000, 0x4000000000041000, 0x4041000, 0x4000000004041000, 0x10000041000,
  0x4000010000041000, 0x10004041000, 0x4000010004041000, 0x10000000000000, 0x4010000000000000,
  0x10000004000000, 0x4010000004000000, 0x10010000000000, 0x4010010000000000, 0x10010004000000,
  0x4010010004000000, 0x10000000040000, 0x4010000000040000, 0x10000004040000, 0x4010000004040000,
  0x10010000040000, 0x4010010000040000, 0x10010004040000, 0x4010010004040000, 0x10000000001000,
  0x4010000000001000, 0x10000004001000, 0x4010000004001000, 0x10010000001000, 0x4010010000001000,
  0x10010004001000, 0x4010010004001000, 0x10000000041000, 0x4010000000041000, 0x10000004041000,
  0x4010000004041000, 0x10010000041000, 0x4010010000041000, 0x10010004041000, 0x4010010004041000,
  0x2000000000, 0x4000002000000000, 0x2004000000, 0x4000002004000000, 0x12000000000,
  0x4000012000000000, 0x12004000000, 0x4000012004000000, 0x2000040000, 0x4000002000040000,
  0x2004040000, 0x4000002004040000, 0x12000040000, 0x4000012000040000, 0x12004040000,
  0x4000012004040000, 0x2000001000, 0x4000002000001000, 0x2004001000, 0x4000002004001000,
  0x12000001000, 0x4000012000001000, 0x12004001000, 0x4000012004001000, 0x2000041000,
  0x4000002000041000, 0x2004041000, 0x4000002004041000, 0x12000041000, 0x4000012000041000,
  0x12004041000, 0x4000012004041000, 0x10002000000000, 0x4010002000000000, 0x10002004000000,
  0x4010002004000000, 0x10012000000000, 0x4010012000000000, 0x10012004000000, 0x4010012004000000,
  0x10002000040000, 0x4010002000040000, 0x10002004040000, 0x4010002004040000, 0x10012000040000,
  0x4010012000040000, 0x10012004040000, 0x4010012004040000, 0x10002000001000, 0x4010002000001000,
  0x10002004001000, 0x4010002004001000, 0x10012000001000, 0x4010012000001000, 0x10012004001000,
  0x4010012004001000, 0x10002000041000, 0x4010002000041000, 0x10002004041000, 0x4010002004041000,
  0x10012000041000, 0x4010012000041000, 0x10012004041000, 0x4010012004041000, 0x20000000000000,
  0x4020000000000000, 0x20000004000000, 0x4020000004000000, 0x20010000000000, 0x4020010000000000,
  0x20010004000000, 0x4020010004000000, 0x20000000040000, 0x4020000000040000, 0x20000004040000,
  0x4020000004040000, 0x20010000040000, 0x4020010000040000, 0x20010004040000, 0x4020010004040000,
  0x20000000001000, 0x4020000000001000, 0x20000004001000, 0x4020000004001000, 0x20010000001000,
  0x4020010000001000, 0x20010004001000, 0x4020010004001000, 0x20000000041000, 0x4020000000041000,
  0x20000004041000, 0x4020000004041000, 0x20010000041000, 0x4020010000041000, 0x20010004041000,
  0x4020010004041000, 0x30000000000000, 0x4030000000000000, 0x30000004000000, 0x4030000004000000,
  0x30010000000000, 0x4030010000000000, 0x30010004000000, 0x4030010004000000, 0x30000000040000,
  0x4030000000040000, 0x30000004040000, 0x4030000004040000, 0x30010000040000, 0x4030010000040000,
  0x30010004040000, 0x4030010004040000, 0x30000000001000, 0x4030000000001000, 0x30000004001000,
  0x4030000004001000, 0x30010000001000, 0x4030010000001000, 0x30010004001000, 0x4030010004001000,
  0x30000000041000, 0x4030000000041000, 0x30000004041000, 0x4030000004041000, 0x30010000041000,
  0x4030010000041000, 0x30010004041000, 0x4030010004041000, 0x20002000000000, 0x4020002000000000,
  0x20002004000000, 0x4020002004000000, 0x20012000000000, 0x4020012000000000, 0x20012004000000,
  0x4020012004000000, 0x20002000040000, 0x4020002000040000, 0x20002004040000, 0x4020002004040000,
  0x20012000040000, 0x4020012000040000, 0x20012004040000, 0x4020012004040000, 0x20002000001000,
  0x4020002000001000, 0x20002004001000, 0x4020002004001000, 0x20012000001000, 0x4020012000001000,
  0x20012004001000, 0x4020012004001000, 0x20002000041000, 0x4020002000041000, 0x20002004041000,
  0x4020002004041000, 0x20012000041000, 0x4020012000041000, 0x20012004041000, 0x4020012004041000,
  0x30002000000000, 0x4030002000000000, 0x30002004000000, 0x4030002004000000, 0x30012000000000,
  0x4030012000000000, 0x30012004000000, 0x4030012004000000, 0x30002000040000, 0x4030002000040000,
  0x30002004040000, 0x4030002004040000, 0x30012000040000, 0x4030012000040000, 0x30012004040000,
  0x4030012004040000, 0x30002000001000, 0x4030002000001000, 0x30002004001000, 0x4030002004001000,
  0x30012000001000, 0x4030012000001000, 0x30012004001000, 0x4030012004001000, 0x30002000041000,
  0x4030002000041000, 0x30002004041000, 0x4030002004041000, 0x30012000041000, 0x4030012000041000,
  0x30012004041000, 0x4030012004041000]

def kpermSixth : List Nat := [
  0x0, 0x800000, 0x800000000000000, 0x800000000800000, 0x20000000000, 0x20000800000,
  0x800020000000000, 0x800020000800000, 0x20000, 0x820000, 0x800000000020000, 0x800000000820000,
  0x20000020000, 0x20000820000, 0x800020000020000, 0x800020000820000, 0x80000000, 0x80800000,
  0x800000080000000, 0x800000080800000, 0x20080000000, 0x20080800000, 0x800020080000000,
  0x800020080800000, 0x80020000, 0x80820000, 0x800000080020000, 0x800000080820000, 0x20080020000,
  0x20080820000, 0x800020080020000, 0x800020080820000, 0x1, 0x800001, 0x800000000000001,
  0x800000000800001, 0x20000000001, 0x20000800001, 0x800020000000001, 0x800020000800001, 0x20001,
  0x820001, 0x800000000020001, 0x800000000820001, 0x20000020001, 0x20000820001, 0x800020000020001,
  0x800020000820001, 0x80000001, 0x80800001, 0x800000080000001, 0x800000080800001, 0x20080000001,
  0x20080800001, 0x800020080000001, 0x800020080800001, 0x80020001, 0x80820001, 0x800000080020001,
  0x800000080820001, 0x20080020001, 0x20080820001, 0x800020080020001, 0x800020080820001, 0x2000000,
  0x2800000, 0x800000002000000, 0x800000002800000, 0x20002000000, 0x20002800000, 0x800020002000000,
  0x800020002800000, 0x2020000, 0x2820000, 0x800000002020000, 0x800000002820000, 0x20002020000,
  0x20002820000, 0x800020002020000, 0x800020002820000, 0x82000000, 0x82800000, 0x800000082000000,
  0x800000082800000, 0x20082000000, 0x20082800000, 0x800020082000000, 0x800020082800000,
  0x82020000, 0x82820000, 0x800000082020000, 0x800000082820000, 0x20082020000, 0x20082820000,
  0x800020082020000, 0x800020082820000, 0x2000001, 0x2800001, 0x800000002000001, 0x800000002800001,
  0x20002000001, 0x20002800001, 0x800020002000001, 0x800020002800001, 0x2020001, 0x2820001,
  0x800000002020001, 0x800000002820001, 0x20002020001, 0x20002820001, 0x800020002020001,
  0x800020002820001, 0x82000001, 0x82800001, 0x800000082000001, 0x800000082800001, 0x20082000001,
  0x20082800001, 0x800020082000001, 0x800020082800001, 0x82020001, 0x82820001, 0x800000082020001,
  0x800000082820001, 0x20082020001, 0x20082820001, 0x800020082020001, 0x800020082820001,
  0x80000000000, 0x80000800000, 0x800080000000000, 0x800080000800000, 0xa0000000000, 0xa0000800000,
  0x8000a0000000000, 0x8000a0000800000, 0x80000020000, 0x80000820000, 0x800080000020000,
  0x800080000820000, 0xa0000020000, 0xa0000820000, 0x8000a0000020000, 0x8000a0000820000,
  0x80080000000, 0x80080800000, 0x800080080000000, 0x800080080800000, 0xa0080000000, 0xa0080800000,
  0x8000a0080000000, 0x8000a0080800000, 0x80080020000, 0x80080820000, 0x800080080020000,
  0x800080080820000, 0xa0080020000, 0xa0080820000, 0x8000a0080020000, 0x8000a0080820000,
  0x80000000001, 0x80000800001, 0x800080000000001, 0x800080000800001, 0xa0000000001, 0xa0000800001,
  0x8000a0000000001, 0x8000a0000800001, 0x80000020001, 0x80000820001, 0x800080000020001,
  0x800080000820001, 0xa0000020001, 0xa0000820001, 0x8000a0000020001, 0x8000a0000820001,
  0x80080000001, 0x80080800001, 0x800080080000001, 0x800080080800001, 0xa0080000001, 0xa0080800001,
  0x8000a0080000001, 0x8000a0080800001, 0x80080020001, 0x80080820001, 0x800080080020001,
  0x800080080820001, 0xa0080020001, 0xa0080820001, 0x8000a0080020001, 0x8000a0080820001,
  0x80002000000, 0x80002800000, 0x800080002000000, 0x800080002800000, 0xa0002000000, 0xa0002800000,
  0x8000a0002000000, 0x8000a0002800000, 0x80002020000, 0x80002820000, 0x800080002020000,
  0x800080002820000, 0xa0002020000, 0xa0002820000, 0x8000a0002020000, 0x8000a0002820000,
  0x80082000000, 0x80082800000, 0x800080082000000, 0x800080082800000, 0xa0082000000, 0xa0082800000,
  0x8000a0082000000, 0x8000a0082800000, 0x80082020000, 0x80082820000, 0x800080082020000,
  0x800080082820000, 0xa0082020000, 0xa0082820000, 0x8000a0082020000, 0x8000a0082820000,
  0x80002000001, 0x80002800001, 0x800080002000001, 0x800080002800001, 0xa0002000001, 0xa0002800001,
  0x8000a0002000001, 0x8000a0002800001, 0x80002020001, 0x80002820001, 0x800080002020001,
  0x800080002820001, 0xa0002020001, 0xa0002820001, 0x8000a0002020001, 0x8000a0002820001,
  0x80082000001, 0x80082800001, 0x800080082000001, 0x800080082800001, 0xa0082000001, 0xa0082800001,
  0x8000a0082000001, 0x8000a0082800001, 0x80082020001, 0x80082820001, 0x800080082020001,
  0x800080082820001, 0xa0082020001, 0xa0082820001, 0x8000a0082020001, 0x8000a0082820001]

def kpermSeventh : List Nat := [
  0x0, 0x100000000000, 0x4000, 0x100000004000, 0x4, 0x100000000004, 0x4004, 0x100000004004, 0x2000,
  0x100000002000, 0x6000, 0x100000006000, 0x2004, 0x100000002004, 0x6004, 0x100000006004,
  0x200000000000, 0x300000000000, 0x200000004000, 0x300000004000, 0x200000000004, 0x300000000004,
  0x200000004004, 0x300000004004, 0x200000002000, 0x300000002000, 0x200000006000, 0x300000006000,
  0x200000002004, 0x300000002004, 0x200000006004, 0x300000006004, 0x1000000000000, 0x1100000000000,
  0x1000000004000, 0x1100000004000, 0x1000000000004, 0x1100000000004, 0x1000000004004,
  0x1100000004004, 0x1000000002000, 0x1100000002000, 0x1000000006000, 0x1100000006000,
  0x1000000002004, 0x1100000002004, 0x1000000006004, 0x1100000006004, 0x1200000000000,
  0x1300000000000, 0x1200000004000, 0x1300000004000, 0x1200000000004, 0x1300000000004,
  0x1200000004004, 0x1300000004004, 0x1200000002000, 0x1300000002000, 0x1200000006000,
  0x1300000006000, 0x1200000002004, 0x1300000002004, 0x1200000006004, 0x1300000006004, 0x8,
  0x100000000008, 0x4008, 0x100000004008, 0xc, 0x10000000000c, 0x400c, 0x10000000400c, 0x2008,
  0x100000002008, 0x6008, 0x100000006008, 0x200c, 0x10000000200c, 0x600c, 0x10000000600c,
  0x200000000008, 0x300000000008, 0x200000004008, 0x300000004008, 0x20000000000c, 0x30000000000c,
  0x20000000400c, 0x30000000400c, 0x200000002008, 0x300000002008, 0x200000006008, 0x300000006008,
  0x20000000200c, 0x30000000200c, 0x20000000600c, 0x30000000600c, 0x1000000000008, 0x1100000000008,
  0x1000000004008, 0x1100000004008, 0x100000000000c, 0x110000000000c, 0x100000000400c,
  0x110000000400c, 0x1000000002008, 0x1100000002008, 0x1000000006008, 0x1100000006008,
  0x100000000200c, 0x110000000200c, 0x100000000600c, 0x110000000600c, 0x1200000000008,
  0x1300000000008, 0x1200000004008, 0x1300000004008, 0x120000000000c, 0x130000000000c,
  0x120000000400c, 0x130000000400c, 0x1200000002008, 0x1300000002008, 0x1200000006008,
  0x1300000006008, 0x120000000200c, 0x130000000200c, 0x120000000600c, 0x130000000600c,
  0x1000000000000000, 0x1000100000000000, 0x1000000000004000, 0x1000100000004000,
  0x1000000000000004, 0x1000100000000004, 0x1000000000004004, 0x1000100000004004,
  0x1000000000002000, 0x1000100000002000, 0x1000000000006000, 0x1000100000006000,
  0x1000000000002004, 0x1000100000002004, 0x1000000000006004, 0x1000100000006004,
  0x1000200000000000, 0x1000300000000000, 0x1000200000004000, 0x1000300000004000,
  0x1000200000000004, 0x1000300000000004, 0x1000200000004004, 0x1000300000004004,
  0x1000200000002000, 0x1000300000002000, 0x1000200000006000, 0x1000300000006000,
  0x1000200000002004, 0x1000300000002004, 0x1000200000006004, 0x1000300000006004,
  0x1001000000000000, 0x1001100000000000, 0x1001000000004000, 0x1001100000004000,
  0x1001000000000004, 0x1001100000000004, 0x1001000000004004, 0x1001100000004004,
  0x1001000000002000, 0x1001100000002000, 0x1001000000006000, 0x1001100000006000,
  0x1001000000002004, 0x1001100000002004, 0x1001000000006004, 0x1001100000006004,
  0x1001200000000000, 0x1001300000000000, 0x1001200000004000, 0x1001300000004000,
  0x1001200000000004, 0x1001300000000004, 0x1001200000004004, 0x1001300000004004,
  0x1001200000002000, 0x1001300000002000, 0x1001200000006000, 0x1001300000006000,
  0x1001200000002004, 0x1001300000002004, 0x1001200000006004, 0x1001300000006004,
  0x1000000000000008, 0x1000100000000008, 0x1000000000004008, 0x1000100000004008,
  0x100000000000000c, 0x100010000000000c, 0x100000000000400c, 0x100010000000400c,
  0x1000000000002008, 0x1000100000002008, 0x1000000000006008, 0x1000100000006008,
  0x100000000000200c, 0x100010000000200c, 0x100000000000600c, 0x100010000000600c,
  0x1000200000000008, 0x1000300000000008, 0x1000200000004008, 0x1000300000004008,
  0x100020000000000c, 0x100030000000000c, 0x100020000000400c, 0x100030000000400c,
  0x1000200000002008, 0x1000300000002008, 0x1000200000006008, 0x1000300000006008,
  0x100020000000200c, 0x100030000000200c, 0x100020000000600c, 0x100030000000600c,
  0x1001000000000008, 0x1001100000000008, 0x1001000000004008, 0x1001100000004008,
  0x100100000000000c, 0x100110000000000c, 0x100100000000400c, 0x100110000000400c,
  0x1001000000002008, 0x1001100000002008, 0x1001000000006008, 0x1001100000006008,
  0x100100000000200c, 0x100110000000200c, 0x100100000000600c, 0x100110000000600c,
  0x1001200000000008, 0x1001300000000008, 0x1001200000004008, 0x1001300000004008,
  0x100120000000000c, 0x100130000000000c, 0x100120000000400c, 0x100130000000400c,
  0x1001200000002008, 0x1001300000002008, 0x1001200000006008, 0x1001300000006008,
  0x100120000000200c, 0x100130000000200c, 0x100120000000600c, 0x100130000000600c]

def kpermEighth : List Nat := [
  0x0, 0x2000000000000, 0x100, 0x2000000000100, 0x400000000, 0x2000400000000, 0x400000100,
  0x2000400000100, 0x20, 0x2000000000020, 0x120, 0x2000000000120, 0x400000020, 0x2000400000020,
  0x400000120, 0x2000400000120, 0x200, 0x2000000000200, 0x300, 0x2000000000300, 0x400000200,
  0x2000400000200, 0x400000300, 0x2000400000300, 0x220, 0x2000000000220, 0x320, 0x2000000000320,
  0x400000220, 0x2000400000220, 0x400000320, 0x2000400000320, 0x40000000000, 0x2040000000000,
  0x40000000100, 0x2040000000100, 0x40400000000, 0x2040400000000, 0x40400000100, 0x2040400000100,
  0x40000000020, 0x2040000000020, 0x40000000120, 0x2040000000120, 0x40400000020, 0x2040400000020,
  0x40400000120, 0x2040400000120, 0x40000000200, 0x2040000000200, 0x40000000300, 0x2040000000300,
  0x40400000200, 0x2040400000200, 0x40400000300, 0x2040400000300, 0x40000000220, 0x2040000000220,
  0x40000000320, 0x2040000000320, 0x40400000220, 0x2040400000220, 0x40400000320, 0x2040400000320,
  0x200000000000000, 0x202000000000000, 0x200000000000100, 0x202000000000100, 0x200000400000000,
  0x202000400000000, 0x200000400000100, 0x202000400000100, 0x200000000000020, 0x202000000000020,
  0x200000000000120, 0x202000000000120, 0x200000400000020, 0x202000400000020, 0x200000400000120,
  0x202000400000120, 0x200000000000200, 0x202000000000200, 0x200000000000300, 0x202000000000300,
  0x200000400000200, 0x202000400000200, 0x200000400000300, 0x202000400000300, 0x200000000000220,
  0x202000000000220, 0x200000000000320, 0x202000000000320, 0x200000400000220, 0x202000400000220,
  0x200000400000320, 0x202000400000320, 0x200040000000000, 0x202040000000000, 0x200040000000100,
  0x202040000000100, 0x200040400000000, 0x202040400000000, 0x200040400000100, 0x202040400000100,
  0x200040000000020, 0x202040000000020, 0x200040000000120, 0x202040000000120, 0x200040400000020,
  0x202040400000020, 0x200040400000120, 0x202040400000120, 0x200040000000200, 0x202040000000200,
  0x200040000000300, 0x202040000000300, 0x200040400000200, 0x202040400000200, 0x200040400000300,
  0x202040400000300, 0x200040000000220, 0x202040000000220, 0x200040000000320, 0x202040000000320,
  0x200040400000220, 0x202040400000220, 0x200040400000320, 0x202040400000320, 0x1000000,
  0x2000001000000, 0x1000100, 0x2000001000100, 0x401000000, 0x2000401000000, 0x401000100,
  0x2000401000100, 0x1000020, 0x2000001000020, 0x1000120, 0x2000001000120, 0x401000020,
  0x2000401000020, 0x401000120, 0x2000401000120, 0x1000200, 0x2000001000200, 0x1000300,
  0x2000001000300, 0x401000200, 0x2000401000200, 0x401000300, 0x2000401000300, 0x1000220,
  0x2000001000220, 0x1000320, 0x2000001000320, 0x401000220, 0x2000401000220, 0x401000320,
  0x2000401000320, 0x40001000000, 0x2040001000000, 0x40001000100, 0x2040001000100, 0x40401000000,
  0x2040401000000, 0x40401000100, 0x2040401000100, 0x40001000020, 0x2040001000020, 0x40001000120,
  0x2040001000120, 0x40401000020, 0x2040401000020, 0x40401000120, 0x2040401000120, 0x40001000200,
  0x2040001000200, 0x40001000300, 0x2040001000300, 0x40401000200, 0x2040401000200, 0x40401000300,
  0x2040401000300, 0x40001000220, 0x2040001000220, 0x40001000320, 0x2040001000320, 0x40401000220,
  0x2040401000220, 0x40401000320, 0x2040401000320, 0x200000001000000, 0x202000001000000,
  0x200000001000100, 0x202000001000100, 0x200000401000000, 0x202000401000000, 0x200000401000100,
  0x202000401000100, 0x200000001000020, 0x202000001000020, 0x200000001000120, 0x202000001000120,
  0x200000401000020, 0x202000401000020, 0x200000401000120, 0x202000401000120, 0x200000001000200,
  0x202000001000200, 0x200000001000300, 0x202000001000300, 0x200000401000200, 0x202000401000200,
  0x200000401000300, 0x202000401000300, 0x200000001000220, 0x202000001000220, 0x200000001000320,
  0x202000001000320, 0x200000401000220, 0x202000401000220, 0x200000401000320, 0x202000401000320,
  0x200040001000000, 0x202040001000000, 0x200040001000100, 0x202040001000100, 0x200040401000000,
  0x202040401000000, 0x200040401000100, 0x202040401000100, 0x200040001000020, 0x202040001000020,
  0x200040001000120, 0x202040001000120, 0x200040401000020, 0x202040401000020, 0x200040401000120,
  0x202040401000120, 0x200040001000200, 0x202040001000200, 0x200040001000300, 0x202040001000300,
  0x200040401000200, 0x202040401000200, 0x200040401000300, 0x202040401000300, 0x200040001000220,
  0x202040001000220, 0x200040001000320, 0x202040001000320, 0x200040401000220, 0x202040401000220,
  0x200040401000320, 0x202040401000320]

def kperm : List (List Nat) := [
  kpermFirst, kpermSecond, kpermThird, kpermFourth, kpermFifth, kpermSixth, kpermSeventh,
  kpermEighth]

end Dvbcsa
