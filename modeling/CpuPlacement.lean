import CpuPlacement.Command.FileTree
import CpuPlacement.Main
import CpuPlacement.Membership
import CpuPlacement.Proofs.Layout.Constructed
import CpuPlacement.Proofs.Reservation.BoundFlag
import CpuPlacement.Proofs.Reservation.Displacement
import CpuPlacement.Proofs.Reservation.Exclusive
import CpuPlacement.Proofs.Layout.GroupNumbering
import CpuPlacement.Proofs.Layout.GroupMembership
import CpuPlacement.Proofs.Layout.Uniform
import CpuPlacement.Proofs.Membership.Run
import CpuPlacement.Proofs.Membership.SingleEntity
import CpuPlacement.Proofs.Layout.LastCpu
import CpuPlacement.Proofs.Layout.Renumbering
import CpuPlacement.Proofs.Layout.Rebuilt
import CpuPlacement.Proofs.Layout.Addressed
import CpuPlacement.Proofs.Native.Simulated
import CpuPlacement.Proofs.Reservation.Pinned
import CpuPlacement.Proofs.Membership.Verified
import CpuPlacement.Proofs.Reservation.Sound
import CpuPlacement.Proofs.Command.Reservations
import CpuPlacement.Proofs.Reservation.CoreChoice
import CpuPlacement.Proofs.Reservation.Refusal
import CpuPlacement.Proofs.Layout.RecordOrder
import CpuPlacement.Proofs.Layout.CacheRecords
import CpuPlacement.Proofs.Reservation.Released
import CpuPlacement.Proofs.Override
import CpuPlacement.Proofs.Reservation.Installed
import CpuPlacement.Proofs.Layout.Contiguous
import CpuPlacement.Proofs.Layout.ConsistentDescriptors
import CpuPlacement.Proofs.Layout.ConsistentRecords
import CpuPlacement.Proofs.Layout.Renamed
import CpuPlacement.Proofs.Mask.TotalOrders
import CpuPlacement.Proofs.Layout.Listing
import CpuPlacement.Proofs.Layout.Paths
import CpuPlacement.Proofs.Mask.Decoding
import CpuPlacement.Proofs.Strategy
import CpuPlacement.Proofs.Reservation.SingleThreaded
import CpuPlacement.Proofs.Layout.Grid
import CpuPlacement.Proofs.Layout.Flat
import CpuPlacement.Proofs.Layout.KeyTable
import CpuPlacement.Proofs.Source.ProcessorBlocks
import CpuPlacement.Proofs.Source.ProcessorLines
import CpuPlacement.Proofs.Source.Properties
import CpuPlacement.Proofs.Source.RangeList
import CpuPlacement.Proofs.Mask.Hex
import CpuPlacement.Proofs.Layout.Printed
import CpuPlacement.Proofs.Native.Satisfiable
